import Lnvps.Lib.Slots
import Mathlib.Tactic

/-! # Support conversations -/

namespace Lnvps.Conversations

open Slots

structure StoredToolCall where
 (id name arguments : String)

inductive ChatMessage where
 | user (content : String) (timestamp : Int)
 | assistant (content : Option String) (toolCalls : List StoredToolCall) (timestamp : Int)
 | tool (toolCallId content : String) (timestamp : Int)

def ChatMessage.transcriptLine : ChatMessage → String
 | .user content _ => "User: " ++ content
 | .assistant content toolCalls _ => toolCalls.foldl
   (fun line tc => line ++ "\n  [tool call] " ++ tc.name ++ "(" ++ tc.arguments ++ ")")
   ("Agent: " ++ content.getD "")
 | .tool _ content _ => "Tool result: " ++ content

structure SenderConversation where
 summary : Option String := none
 messages : List ChatMessage := []

def SenderConversation.transcript (conv : SenderConversation) : String :=
 let existing := match conv.summary with
  | some summary => "Existing summary (incorporate into your updated summary):\n" ++ summary ++
    "\n\nNew exchanges to fold in:\n"
  | none => ""
 conv.messages.foldl (fun text message => text ++ message.transcriptLine ++ "\n") existing

structure StoreText where
 lowercase : List Char → List Char
 print : SenderConversation → List Char
 parse : List Char → Option SenderConversation

structure Slot where
 cached : Option SenderConversation := none
 file : Option (List Char) := none

abbrev Store := List Char → Slot

inductive Write where
 | done
 | refused
 | cut (n : Nat)

structure Request where
 sender : List Char
 chat : SenderConversation → Except String (String × List ChatMessage)
 summarise : String → Except String String
 (appendWrite saveWrite : Write)

section Agent

variable (text : StoreText)

def normalizeKey (sender : List Char) : List Char :=
 (text.lowercase sender).map fun c => if c.isAlphanum then c else '_'

def flush (key : List Char) (conv : SenderConversation) : Write → StateM Store Bool
 | .done => do
  writeSlot key fun slot => { slot with file := some (text.print conv) }
  return true
 | .refused => return false
 | .cut n => do
  writeSlot key fun slot => { slot with file := some ((text.print conv).take n) }
  return false

def load (sender : List Char) : StateM Store SenderConversation := do
 let slot ← readSlot (normalizeKey text sender)
 return slot.cached.getD {}

def append (sender : List Char) (messages : List ChatMessage) (result : Write) : StateM Store Bool :=
 if messages = [] then return true
 else do
  let key := normalizeKey text sender
  let slot ← readSlot key
  let conv := slot.cached.getD {}
  let conv := { conv with messages := conv.messages ++ messages }
  writeSlot key fun slot => { slot with cached := some conv }
  flush text key conv result

def save (sender : List Char) (conv : SenderConversation) (result : Write) : StateM Store Bool := do
 let key := normalizeKey text sender
 writeSlot key fun slot => { slot with cached := some conv }
 flush text key conv result

def compact (req : Request) : StateM Store Unit := do
 let conv ← load text req.sender
 if conv.messages = [] then return ()
 else match req.summarise conv.transcript with
  | .error _ => return ()
  | .ok summary => discard (save text req.sender { summary := some summary } req.saveWrite)

variable (compactionThreshold : Nat)

def recordTurn (req : Request) (messages : List ChatMessage) : StateM Store Unit := do
 if ← append text req.sender messages req.appendWrite then
  let conv ← load text req.sender
  if compactionThreshold < conv.messages.length then compact text req

def processRequest (req : Request) : StateM Store (Except String String) := do
 let conv ← load text req.sender
 match req.chat conv with
 | .error e => return .error e
 | .ok (response, messages) =>
  recordTurn text compactionThreshold req messages
  return .ok response

inductive Event where
 | request (req : Request)
 | restart (unreadable : List Char → Bool)

variable (st : Store)

def step : Event → Store
 | .request req => (processRequest text compactionThreshold req st).2
 | .restart unreadable => fun key =>
  { st key with cached := if unreadable key then none else (st key).file.bind text.parse }

def run (events : List Event) : Store := events.foldl (step text compactionThreshold) st

def history (sender : List Char) : SenderConversation := (load text sender st).1

def Event.keeps (p : List Char → Bool) : Event → Bool
 | .request req => p req.sender
 | .restart _ => true

def Isolated (senders : List Char → Prop) : Prop :=
 ∀ (st : Store) (events : List Event), (∀ req, .request req ∈ events → senders req.sender) →
  ∀ sender, senders sender → history text (run text compactionThreshold st events) sender =
   history text (run text compactionThreshold st
    (events.filter (Event.keeps fun other => text.lowercase other = text.lowercase sender))) sender

end Agent

variable {text : StoreText} {compactionThreshold : Nat} {sender : List Char} {req : Request} {key : List Char}

theorem local_flush (conv : SenderConversation) (result : Write) : Local key (flush text key conv result) := by
 cases result with
 | done => exact (Local.writeSlot _).bind fun _ => .pure true
 | refused => exact .pure false
 | cut n => exact (Local.writeSlot _).bind fun _ => .pure false

theorem local_load : Local (normalizeKey text sender) (load text sender) := Local.readSlot.bind fun _ => .pure _

variable (messages : List ChatMessage)

theorem local_append (result : Write) : Local (normalizeKey text sender) (append text sender messages result) := by
 rw [append]
 split
 · exact .pure true
 · exact Local.readSlot.bind fun _ => (Local.writeSlot _).bind fun _ => local_flush _ _

theorem local_save (conv : SenderConversation) (result : Write) :
  Local (normalizeKey text sender) (save text sender conv result) :=
 (Local.writeSlot _).bind fun _ => local_flush _ _

theorem local_compact : Local (normalizeKey text req.sender) (compact text req) := by
 refine local_load.bind fun conv => ?_
 split
 · exact .pure ()
 · split
   · exact .pure ()
   · exact (local_save _ _).bind fun _ => .pure ()

theorem local_recordTurn :
  Local (normalizeKey text req.sender) (recordTurn text compactionThreshold req messages) := by
 refine (local_append _ _).bind fun appended => ?_
 split
 · refine local_load.bind fun conv => ?_
   split
   · exact local_compact
   · exact .pure ()
 · exact .pure ()

theorem local_processRequest : Local (normalizeKey text req.sender) (processRequest text compactionThreshold req) := by
 refine local_load.bind fun conv => ?_
 split
 · exact .pure _
 · exact (local_recordTurn _).bind fun _ => .pure _

theorem run_keeps_key (st : Store) (events : List Event) (key : List Char) :
  run text compactionThreshold st events key =
   run text compactionThreshold st (events.filter (Event.keeps fun other => normalizeKey text other = key)) key := by
 refine run_filter (fun st event hevent => ?_) (fun st st' event hst => ?_) rfl events
 · cases event with
   | request req => exact local_processRequest.frame st (.symm (by simpa [Event.keeps] using hevent))
   | restart unreadable => exact nomatch hevent
 cases event with
 | request req =>
  by_cases hreq : normalizeKey text req.sender = key
  · subst hreq
    exact local_processRequest.congr hst
  · exact ((local_processRequest.frame st (.symm hreq)).trans hst).trans
     (local_processRequest.frame st' (.symm hreq)).symm
 | restart unreadable =>
  change Slot.mk _ _ = .mk _ _
  rw [hst]

theorem history_eq (st : Store) : history text st sender = (st (normalizeKey text sender)).cached.getD {} := rfl

theorem isolated_of_keys {senders : List Char → Prop} (h : ∀ a b, senders a → senders b →
  normalizeKey text a = normalizeKey text b → text.lowercase a = text.lowercase b) :
  Isolated text compactionThreshold senders := by
 intro st events hevents sender hsender
 have hfilter : events.filter (Event.keeps fun other => text.lowercase other = text.lowercase sender) =
   events.filter (Event.keeps fun other => normalizeKey text other = normalizeKey text sender) := by
  refine List.filter_congr fun event hevent => ?_
  cases event with
  | request req =>
   refine decide_eq_decide.mpr ⟨fun hcase => ?_, h _ _ (hevents req hevent) hsender⟩
   rw [normalizeKey, hcase, normalizeKey]
  | restart unreadable => rfl
 rw [history_eq, history_eq, hfilter, ← run_keeps_key]

def note (sender : List Char) (message : ChatMessage) : Request where
 sender := sender
 chat := fun _ => .ok ("", [message])
 summarise := fun _ => .error ""
 appendWrite := .refused
 saveWrite := .refused

theorem history_note (a : List Char) (message : ChatMessage) (h : normalizeKey text a = normalizeKey text sender) :
  history text (run text compactionThreshold (fun _ => {}) [.request (note sender message)]) a =
   { messages := [message] } := by
 rw [history_eq, h]
 simp [run, step, processRequest, recordTurn, note, load, append, flush, bind_apply, map_apply, readSlot, writeSlot]

/-- Histories are kept apart if and only if equal keys mean equal senders up to letter case. -/
theorem isolated_iff (text : StoreText) (compactionThreshold : Nat) (senders : List Char → Prop) :
  Isolated text compactionThreshold senders ↔ ∀ a b, senders a → senders b →
   normalizeKey text a = normalizeKey text b → text.lowercase a = text.lowercase b := by
 refine ⟨fun h a b ha hb hkey => ?_, isolated_of_keys⟩
 by_contra hcase
 have hleak := h (fun _ => {}) [.request (note b (.user "" 0))] (by simpa [note] using hb) a ha
 rw [history_note a _ hkey, List.filter_cons_of_neg (by simp [Event.keeps, note, Ne.symm hcase])] at hleak
 exact nomatch congrArg SenderConversation.messages hleak

def asciiText : StoreText where
 lowercase := fun s => s.map Char.toLower
 print := fun _ => []
 parse := fun _ => none

/-- Two addresses with one key: the second sender gets the message of the first as history. -/
theorem history_leaks : ∃ a b message, a = "a@b.c".toList ∧ b = "a_b.c".toList ∧
  asciiText.lowercase a ≠ asciiText.lowercase b ∧
  history asciiText (run asciiText 30 (fun _ => {}) [.request (note a message)]) b = { messages := [message] } ∧
  ¬Isolated asciiText 30 fun _ => True := by
 refine ⟨_, _, .user "my password is swordfish" 0, rfl, rfl, by decide, history_note _ _ (by decide), fun h => ?_⟩
 have hleak := h (fun _ => {}) [.request (note "a@b.c".toList (.user "" 0))] (by simp) "a_b.c".toList trivial
 rw [history_note _ _ (by decide)] at hleak
 exact nomatch congrArg SenderConversation.messages hleak

end Lnvps.Conversations
