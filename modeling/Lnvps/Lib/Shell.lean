import Mathlib.Data.List.DropRight
import Mathlib.Tactic

/-! # Shell scripts -/

namespace Shell

open List Option Bool

abbrev Text := List Char

inductive Piece
 | char (c : Char)
 | param (name : Text)
 | output (script : Text)
 deriving DecidableEq

abbrev Word := List Piece

def arg (t : Text) : Word := t.map .char

structure Command where
 assigns : List (Text × Word) := []
 words : List Word := []
 redirects : List (Nat × Word) := []
 deriving DecidableEq

abbrev Script := List (List Command)

inductive Mode
 | plain
 | escape
 | single
 | double
 | doubleEscape
 | doubleDollar
 | param (name : Text)
 | dollar
 | output (script : Text)
 | ampersand
 | angle
 deriving DecidableEq

inductive Role
 | word
 | assign (name : Text)
 | redirect (fd : Nat)
 deriving DecidableEq

structure State where
 lists : Script := []
 ands : List Command := []
 cmd : Command := {}
 role : Role := .word
 word : Option Word := none
 bare : Bool := true
 mode : Mode := .plain

def backtick : Char := Char.ofNat 96

def nul : Char := Char.ofNat 0

def bareChar (c : Char) : Bool := c.isAlphanum || c = '-' || c = '_' || c = '.' || c = '/' || c = ':'

def nameChar (c : Char) : Bool := c.isAlphanum || c = '_'

def isName (w : Word) : Bool :=
 w.all (fun | .char c => nameChar c | _ => false) && w.head?.any fun | .char c => !c.isDigit | _ => false

def textOf (w : Word) : Option Text := w.mapM fun
 | .char c => some c
 | _ => none

def reserved : List String :=
 ["if", "then", "else", "elif", "fi", "do", "done", "case", "esac", "while", "until", "for", "in", "function",
  "select", "time", "namespace"]

namespace State

variable (s : State)

def push (p : Piece) : State := { s with word := some (s.word.getD [] ++ [p]) }

def quoted : State := { s with word := some (s.word.getD []), bare := false }

def endWord : Option State :=
 let next := { s with role := .word, word := none, bare := true }
 match s.role, s.word with
 | .word, none => some next
 | .word, some w =>
  if s.cmd.words = [] ∧ s.bare ∧ w ∈ reserved.map (arg ·.toList) then none
  else some { next with cmd := { s.cmd with words := s.cmd.words ++ [w] } }
 | .assign name, w => some { next with cmd := { s.cmd with assigns := s.cmd.assigns ++ [(name, w.getD [])] } }
 | .redirect fd, some w => some { next with cmd := { s.cmd with redirects := s.cmd.redirects ++ [(fd, w)] } }
 | .redirect _, none => none

def endCommand : Option State := do
 let s ← s.endWord
 if s.cmd = {} then none else some { s with ands := s.ands ++ [s.cmd], cmd := {} }

def endList : Option State := do
 let s ← s.endCommand
 some { s with lists := s.lists ++ [s.ands], ands := [] }

def blank : Option State :=
 match s.role, s.word with
 | .redirect _, none => some s
 | _, _ => s.endWord

def equals : State :=
 match s.role, s.word with
 | .word, some w =>
  match textOf w with
  | some name =>
   if s.cmd.words = [] ∧ s.bare ∧ isName w then { s with role := .assign name, word := none } else s.push (.char '=')
  | none => s.push (.char '=')
 | _, _ => s.push (.char '=')

def redirect : Option State :=
 let number : Option Nat := do
  let digits ← textOf (← s.word)
  if s.role = .word ∧ s.bare ∧ digits.all Char.isDigit then some (Nat.ofDigitChars 10 digits 0) else none
 match number with
 | some fd => some { s with role := .redirect fd, word := none, mode := .angle }
 | none => do
  let s ← s.endWord
  some { s with role := .redirect 1, mode := .angle }

def plainStep (c : Char) : Option State :=
  let s := { s with mode := .plain }
  if c = '\'' then some { s.quoted with mode := .single }
  else if c = '"' then some { s.quoted with mode := .double }
  else if c = '\\' then some { s.quoted with mode := .escape }
  else if c = ' ' ∨ c = '\t' then s.blank
  else if c = ';' then s.endList
  else if c = '&' then some { s with mode := .ampersand }
  else if c = '>' then s.redirect
  else if c = '$' then
    match s.role with
    | .assign _ => some { s with mode := .dollar }
    | _ => none
  else if c = '=' then some s.equals
  else if bareChar c then some (s.push (.char c))
  else none

def doubleStep (c : Char) : Option State :=
  let s := { s with mode := .double }
  if c = '"' then some { s with mode := .plain }
  else if c = '\\' then some { s with mode := .doubleEscape }
  else if c = '$' then some { s with mode := .doubleDollar }
  else if c = backtick ∨ c = nul then none
  else some (s.push (.char c))

def step (c : Char) : Option State :=
  match s.mode with
  | .plain => s.plainStep c
  | .escape => if c = '\n' ∨ c = nul then none else some { s.push (.char c) with mode := .plain }
  | .single =>
    if c = '\'' then some { s with mode := .plain } else if c = nul then none else some (s.push (.char c))
  | .double => s.doubleStep c
  | .doubleEscape =>
    if c = '\n' ∨ c = nul then none
    else if c = '$' ∨ c = backtick ∨ c = '"' ∨ c = '\\' then some { s.push (.char c) with mode := .double }
    else some { (s.push (.char '\\')).push (.char c) with mode := .double }
  | .doubleDollar => if nameChar c ∧ !c.isDigit then some { s with mode := .param [c] } else none
  | .param name =>
    if nameChar c then some { s with mode := .param (name ++ [c]) } else (s.push (.param name)).doubleStep c
  | .dollar => if c = '(' then some { s with mode := .output [] } else none
  | .output script =>
    if c = ')' then some { s.push (.output script) with mode := .plain }
    else if bareChar c ∨ c = ' ' then some { s with mode := .output (script ++ [c]) }
    else none
  | .ampersand => if c = '&' then ({ s with mode := .plain } : State).endCommand else none
  | .angle => if c = '>' ∨ c = '&' ∨ c = '|' then none else s.plainStep c

def read (t : Text) : Option State := t.foldlM step s

end State

def parse (t : Text) : Option Script := do
 let s ← State.read {} t
 if s.mode = .plain then (← s.endList).lists else none

def escapeQuote (c : Char) : Text := if c = '\'' then "'\\''".toList else [c]

def quote (t : Text) : Text := '\'' :: (t.flatMap escapeQuote ++ ['\''])

inductive Token
 | bare (t : Text)
 | quoted (t : Text)
 | var (name : Text)

namespace Token

def text : Token → Text
 | .bare t => t
 | .quoted t => quote t
 | .var name => '"' :: '$' :: (name ++ ['"'])

def word : Token → Word
 | .bare t => arg t
 | .quoted t => arg t
 | .var name => [.param name]

def isBare : Token → Bool
 | .bare _ => true
 | _ => false

def ok : Token → Bool
 | .bare t => t ≠ [] && t.all bareChar
 | .quoted t => nul ∉ t
 | .var name => name.all nameChar && name.head?.any (!·.isDigit)

end Token

inductive Atom
 | word (t : Token)
 | assign (name script : Text)
 | stdout (file : Token)
 | stderr (file : Token)

namespace Atom

def text : Atom → Text
 | .word t => t.text
 | .assign name script => name ++ '=' :: '$' :: '(' :: (script ++ [')'])
 | .stdout file => '>' :: ' ' :: file.text
 | .stderr file => '2' :: '>' :: file.text

def add (cmd : Command) : Atom → Command
 | .word t => { cmd with words := cmd.words ++ [t.word] }
 | .assign name script => { cmd with assigns := cmd.assigns ++ [(name, [.output script])] }
 | .stdout file => { cmd with redirects := cmd.redirects ++ [(1, file.word)] }
 | .stderr file => { cmd with redirects := cmd.redirects ++ [(2, file.word)] }

def ok (cmd : Command) : Atom → Bool
 | .word t => t.ok && !(decide (cmd.words = []) && t.isBare && decide (t.word ∈ reserved.map (arg ·.toList)))
 | .assign name script => decide (cmd.words = []) && isName (arg name) && script.all fun c => bareChar c || c = ' '
 | .stdout file => file.ok
 | .stderr file => file.ok

end Atom

variable (atoms : List Atom)

def command : Command := atoms.foldl Atom.add {}

def commandText : Text := [' '].intercalate (atoms.map Atom.text)

def atomsOk : Command → List Atom → Bool
 | _, [] => true
 | cmd, a :: atoms => a.ok cmd && atomsOk (a.add cmd) atoms

def commandOk : Bool := atoms ≠ [] && atomsOk {} atoms

abbrev Source := List (List (List Atom))

def andText (commands : List (List Atom)) : Text := " && ".toList.intercalate (commands.map commandText)

namespace Source

variable (src : Source)

def text : Text := "; ".toList.intercalate (src.map andText)

def script : Script := src.map (·.map command)

def ok : Bool := src ≠ [] && src.all fun l => l ≠ [] && l.all commandOk

end Source

namespace State

variable {s s' s'' : State} {t t' name script : Text} {c d : Char} {w : Word} {b : Bool} {cmd : Command}

def inWord (s : State) (word : Option Word) (bare : Bool) (mode : Mode) : State := { s with word, bare, mode }

theorem read_nil : s.read [] = some s := rfl

theorem read_cons : s.read (c :: t) = (s.step c).bind (·.read t) := rfl

theorem read_append : s.read (t ++ t') = (s.read t).bind (·.read t') := List.foldlM_append

theorem ne_of_bareChar (h : bareChar c = true) (hd : bareChar d = false) : c ≠ d := by
 rintro rfl
 rw [h] at hd
 cases hd

theorem plainStep_bareChar (h : bareChar c = true) :
  s.plainStep c = some (({ s with mode := .plain } : State).push (.char c)) := by
 have hne : ∀ d, bareChar d = false → ¬c = d := fun d hd => ne_of_bareChar h hd
 unfold plainStep
 rw [if_neg (hne _ (by decide)), if_neg (hne _ (by decide)), if_neg (hne _ (by decide)),
  if_neg (not_or.mpr ⟨hne _ (by decide), hne _ (by decide)⟩), if_neg (hne _ (by decide)), if_neg (hne _ (by decide)),
  if_neg (hne _ (by decide)), if_neg (hne _ (by decide)), if_neg (hne _ (by decide)), if_pos h]

theorem read_bare (ht : t.all bareChar = true) :
  (s.inWord (some w) b .plain).read t = some (s.inWord (some (w ++ arg t)) b .plain) := by
 induction t generalizing w with
 | nil => simp [read_nil, arg]
 | cons c t ih =>
  rw [all_cons, and_eq_true] at ht
  have hstep : (s.inWord (some w) b .plain).step c = some (s.inWord (some (w ++ [.char c])) b .plain) :=
   plainStep_bareChar ht.1
  rw [read_cons, hstep, bind_some, ih ht.2]
  simp [arg]

theorem read_single (ht : nul ∉ t) : (s.inWord (some w) false .single).read (t.flatMap escapeQuote ++ ['\'']) =
  some (s.inWord (some (w ++ arg t)) false .plain) := by
 induction t generalizing w with
 | nil => simp [read_cons, read_nil, arg, step, inWord]
 | cons c t ih =>
  obtain ⟨hnul, ht⟩ := not_or.mp (mt mem_cons.mpr ht)
  rw [flatMap_cons, append_assoc, read_append]
  have hchar : (s.inWord (some w) false .single).read (escapeQuote c) =
    some (s.inWord (some (w ++ [.char c])) false .single) := by
   by_cases hc : c = '\''
   · subst hc
     rfl
   · simp [escapeQuote, hc, Ne.symm hnul, read_cons, read_nil, step, inWord, push]
  rw [hchar, bind_some, ih ht]
  simp [arg]

theorem read_param (ht : t.all nameChar = true) : (s.inWord (some w) false (.param name)).read (t ++ ['"']) =
    some (s.inWord (some (w ++ [.param (name ++ t)])) false .plain) := by
  induction t generalizing name with
  | nil =>
    simp only [nil_append, append_nil]
    rfl
  | cons c t ih =>
    rw [all_cons, and_eq_true] at ht
    have hstep : (s.inWord (some w) false (.param name)).step c =
        some (s.inWord (some w) false (.param (name ++ [c]))) := if_pos ht.1
    rw [cons_append, read_cons, hstep, bind_some, ih ht.2]
    simp

def Starts (mode : Mode) : Prop := mode = .plain ∨ mode = .angle

theorem step_of_starts {mode : Mode} {word : Option Word} (h : Starts mode) (hc : c ≠ '>' ∧ c ≠ '&' ∧ c ≠ '|') :
  (s.inWord word b mode).step c = (s.inWord word b mode).plainStep c := by
 rcases h with rfl | rfl
 · rfl
 · exact if_neg (by simp [hc])

variable {k : Token} {atoms : List Atom}

theorem read_token {mode : Mode} (h : Starts mode) (hk : k.ok = true) :
    (s.inWord none true mode).read k.text = some (s.inWord (some k.word) k.isBare .plain) := by
  cases k with
  | bare t =>
    cases t with
    | nil => cases hk
    | cons c t =>
      simp only [Token.ok, all_cons, and_eq_true] at hk
      obtain ⟨-, hc, ht⟩ := hk
      have hstep : (s.inWord none true mode).step c = some (s.inWord (some [.char c]) true .plain) :=
        (step_of_starts h ⟨ne_of_bareChar hc (by decide), ne_of_bareChar hc (by decide),
          ne_of_bareChar hc (by decide)⟩).trans (plainStep_bareChar hc)
      rw [Token.text, read_cons, hstep, bind_some, read_bare ht]
      rfl
  | quoted t =>
    have hstep : (s.inWord none true mode).step '\'' = some (s.inWord (some []) false .single) :=
      step_of_starts h (by decide)
    rw [Token.text, quote, read_cons, hstep, bind_some, read_single (of_decide_eq_true hk)]
    rfl
  | var name =>
    cases name with
    | nil => cases hk
    | cons c t =>
      simp only [Token.ok, all_cons, and_eq_true, List.head?_cons, any_some] at hk
      obtain ⟨⟨hc, ht⟩, hdigit⟩ := hk
      have hopen : (s.inWord none true mode).step '"' = some (s.inWord (some []) false .double) :=
        step_of_starts h (by decide)
      have hdollar : (s.inWord (some []) false .double).step '$' = some (s.inWord (some []) false .doubleDollar) := rfl
      have hname : (s.inWord (some []) false .doubleDollar).step c = some (s.inWord (some []) false (.param [c])) :=
        if_pos ⟨hc, hdigit⟩
      rw [Token.text, read_cons, hopen, bind_some, read_cons, hdollar, bind_some, cons_append,
        read_cons, hname, bind_some, read_param ht]
      rfl

theorem read_output (ht : t.all (fun c => bareChar c || c = ' ') = true) :
  (s.inWord none b (.output script)).read (t ++ [')']) =
   some (s.inWord (some [.output (script ++ t)]) b .plain) := by
 induction t generalizing script with
 | nil =>
  simp only [nil_append, append_nil]
  rfl
 | cons c t ih =>
  rw [all_cons, and_eq_true, or_eq_true, decide_eq_true_eq] at ht
  have hparen : c ≠ ')' := by
   rcases ht.1 with hc | hc
   · exact ne_of_bareChar hc (by decide)
   · rw [hc]
     decide
  have hstep : (s.inWord none b (.output script)).step c = some (s.inWord none b (.output (script ++ [c]))) :=
   (if_neg hparen).trans (if_pos ht.1)
  rw [cons_append, read_cons, hstep, bind_some, ih ht.2]
  simp

def between (lists : Script) (ands : List Command) (cmd : Command) : State := { lists, ands, cmd }

def Reads (s : State) (t : Text) (s' : State) : Prop :=
 ∃ p, s.read t = some p ∧ p.mode = .plain ∧ p.word.isSome ∧ p.endWord = some s'

variable {lists : Script} {ands : List Command}

theorem textOf_arg (t : Text) : textOf (arg t) = some t := by
 induction t with
 | nil => rfl
 | cons c t ih =>
  unfold textOf arg at ih ⊢
  rw [map_cons, mapM_cons, ih]
  rfl

theorem bareChar_of_nameChar (h : nameChar c = true) : bareChar c = true := by
 simp only [nameChar, or_eq_true, decide_eq_true_eq] at h
 rcases h with h | rfl
 · simp [bareChar, h]
 · decide

theorem bare_of_isName (h : isName (arg name) = true) : (Token.bare name).ok = true := by
 simp only [isName, and_eq_true, arg, List.all_map, List.all_eq_true] at h
 have hne : name ≠ [] := by
  rintro rfl
  cases h.2
 simp only [Token.ok, and_eq_true, List.all_eq_true, decide_eq_true_eq]
 exact ⟨hne, fun c hc => bareChar_of_nameChar (h.1 c hc)⟩

theorem reads_word (h : (Atom.word k).ok cmd = true) :
  Reads (between lists ands cmd) k.text (between lists ands ((Atom.word k).add cmd)) := by
 simp only [Atom.ok, Bool.and_eq_true, Bool.not_eq_true'] at h
 refine ⟨_, read_token (s := between lists ands cmd) (.inl rfl) h.1, rfl, rfl, ?_⟩
 have hfree : ¬(cmd.words = [] ∧ k.isBare = true ∧ k.word ∈ reserved.map (arg ·.toList)) := by
  rintro ⟨hfirst, hbare, hmem⟩
  have hno := h.2
  simp only [hfirst, hbare, hmem, decide_true, Bool.and_self] at hno
  cases hno
 exact if_neg hfree

theorem reads_assign (h : (Atom.assign name script).ok cmd = true) :
  Reads (between lists ands cmd) (Atom.assign name script).text
   (between lists ands ((Atom.assign name script).add cmd)) := by
 simp only [Atom.ok, and_eq_true, decide_eq_true_eq] at h
 obtain ⟨⟨hfirst, hname⟩, hscript⟩ := h
 have hword := read_token (s := between lists ands cmd) (.inl rfl) (bare_of_isName hname)
 have hequals : ((between lists ands cmd).inWord (some (arg name)) true .plain).step '=' =
   some (({ between lists ands cmd with role := .assign name } : State).inWord none true .plain) := by
  change some (equals _) = _
  simp only [equals, inWord, between, textOf_arg]
  exact congrArg some (if_pos ⟨hfirst, trivial, hname⟩)
 have hread : (between lists ands cmd).read (Atom.assign name script).text = some
   (({ between lists ands cmd with role := .assign name } : State).inWord (some [.output script]) true .plain) := by
  refine read_append.trans ?_
  rw [show (between lists ands cmd).read name = _ from hword, bind_some]
  change ((between lists ands cmd).inWord (some (arg name)) true .plain).read _ = _
  rw [read_cons, hequals, bind_some]
  exact read_output hscript
 exact ⟨_, hread, rfl, rfl, rfl⟩

theorem reads_stdout (h : k.ok = true) :
  Reads (between lists ands cmd) (Atom.stdout k).text (between lists ands ((Atom.stdout k).add cmd)) :=
 ⟨_, read_token (s := { between lists ands cmd with role := .redirect 1 }) (.inl rfl) h, rfl, rfl, rfl⟩

theorem reads_stderr (h : k.ok = true) :
  Reads (between lists ands cmd) (Atom.stderr k).text (between lists ands ((Atom.stderr k).add cmd)) :=
 ⟨_, read_token (s := { between lists ands cmd with role := .redirect 2 }) (.inr rfl) h, rfl, rfl, rfl⟩

theorem reads_atom {a : Atom} (h : a.ok cmd = true) :
  Reads (between lists ands cmd) a.text (between lists ands (a.add cmd)) := by
 cases a with
 | word k => exact reads_word h
 | assign name script => exact reads_assign h
 | stdout k => exact reads_stdout h
 | stderr k => exact reads_stderr h

theorem endWord_endWord (h : s.endWord = some s') : s'.endWord = some s' := by
 unfold endWord at h
 split at h
 · cases h
   rfl
 · split at h
   · cases h
   · cases h
     rfl
 · cases h
   rfl
 · cases h
   rfl
 · cases h

theorem endList_of_endWord (h : s.endWord = some s') : s.endList = s'.endList := by
 unfold endList endCommand
 rw [h, endWord_endWord h]

theorem Reads.step (h : Reads s t s') : ∃ p, s.read t = some p ∧ p.step ' ' = some s' ∧ p.step ';' = s'.endList := by
 obtain ⟨⟨l, a, cmd, role, word, b, mode⟩, hread, hmode, hword, hend⟩ := h
 refine ⟨_, hread, ?_⟩
 obtain rfl : mode = .plain := hmode
 cases word with
 | none => cases hword
 | some w =>
  refine ⟨?_, endList_of_endWord hend⟩
  rw [← hend]
  cases role <;> rfl

theorem Reads.blank (h : Reads s t s') : s.read (t ++ [' ']) = some s' := by
 obtain ⟨p, hread, hblank, -⟩ := h.step
 rw [read_append, hread, bind_some, read_cons, hblank]
 rfl

theorem Reads.append (h : Reads s t s') (h' : Reads s' t' s'') : Reads s (t ++ ' ' :: t') s'' := by
 obtain ⟨p, hread, hp⟩ := h'
 refine ⟨p, ?_, hp⟩
 rw [append_cons, read_append, h.blank, bind_some, hread]

theorem reads_atoms {a : Atom} (h : atomsOk cmd (a :: atoms) = true) :
  Reads (between lists ands cmd) (commandText (a :: atoms))
   (between lists ands ((a :: atoms).foldl Atom.add cmd)) := by
 induction atoms generalizing a cmd with
 | nil =>
  rw [atomsOk, and_eq_true] at h
  simpa [commandText] using reads_atom h.1
 | cons a' atoms ih =>
  rw [atomsOk, and_eq_true] at h
  have hfirst : Reads (between lists ands cmd) a.text (between lists ands (a.add cmd)) := reads_atom h.1
  simpa [commandText, intercalate_cons_cons] using hfirst.append (ih h.2)

theorem add_ne (a : Atom) (cmd : Command) : a.add cmd ≠ {} := by
 cases a <;> simp [Atom.add]

theorem command_ne (h : atoms ≠ []) : command atoms ≠ {} := by
 obtain ⟨init, a, rfl⟩ := (eq_nil_or_concat' atoms).resolve_left h
 rw [command, foldl_append]
 exact add_ne a _

theorem reads_command (lists : Script) (ands : List Command) (h : commandOk atoms = true) :
  Reads (between lists ands {}) (commandText atoms) (between lists ands (command atoms)) ∧ command atoms ≠ {} := by
 rw [commandOk, and_eq_true, decide_eq_true_eq] at h
 cases atoms with
 | nil => exact absurd rfl h.1
 | cons a atoms => exact ⟨reads_atoms h.2, command_ne h.1⟩

theorem endCommand_between (hcmd : cmd ≠ {}) :
  (between lists ands cmd).endCommand = some (between lists (ands ++ [cmd]) {}) := if_neg hcmd

theorem Reads.and (h : Reads s t (between lists ands cmd)) (hcmd : cmd ≠ {})
  (h' : Reads (between lists (ands ++ [cmd]) {}) t' s'') : Reads s (t ++ (" && ".toList ++ t')) s'' := by
 obtain ⟨p, hread, hp⟩ := h'
 refine ⟨p, ?_, hp⟩
 have hand : (between lists ands cmd).read "&& ".toList = some (between lists (ands ++ [cmd]) {}) := by
  change (between lists ands cmd).endCommand.bind (·.read [' ']) = _
  rw [endCommand_between hcmd]
  rfl
 have hsplit : t ++ (" && ".toList ++ t') = (t ++ [' ']) ++ ("&& ".toList ++ t') := by simp
 rw [hsplit, read_append, h.blank, bind_some, read_append, hand, bind_some, hread]

theorem endList_between (hcmd : cmd ≠ {}) :
  (between lists ands cmd).endList = some (between (lists ++ [ands ++ [cmd]]) [] {}) := by
 unfold endList
 rw [endCommand_between hcmd]
 rfl

theorem Reads.seq (h : Reads s t (between lists ands cmd)) (hcmd : cmd ≠ {})
  (h' : Reads (between (lists ++ [ands ++ [cmd]]) [] {}) t' s'') : Reads s (t ++ ("; ".toList ++ t')) s'' := by
 obtain ⟨p, hread, hp⟩ := h'
 refine ⟨p, ?_, hp⟩
 obtain ⟨q, hq, -, hend⟩ := h.step
 rw [read_append, hq, bind_some, read_append]
 have hseq : q.read "; ".toList = some (between (lists ++ [ands ++ [cmd]]) [] {}) := by
  change (q.step ';').bind (·.read [' ']) = _
  rw [hend, endList_between hcmd]
  rfl
 rw [hseq, bind_some, hread]

theorem Reads.parse (h : Reads {} t (between lists ands cmd)) (hcmd : cmd ≠ {}) :
  parse t = some (lists ++ [ands ++ [cmd]]) := by
 obtain ⟨p, hread, hmode, -, hend⟩ := h
 unfold Shell.parse
 rw [hread]
 change (if p.mode = .plain then (p.endList).bind fun s => some s.lists else none) = _
 rw [if_pos hmode, endList_of_endWord hend, endList_between hcmd]
 rfl

theorem reads_ands (lists : Script) (ands : List Command) {commands : List (List Atom)} (hne : commands ≠ [])
  (h : ∀ atoms ∈ commands, commandOk atoms = true) :
  ∃ ands' cmd', Reads (between lists ands {}) (andText commands) (between lists ands' cmd') ∧ cmd' ≠ {} ∧
   ands' ++ [cmd'] = ands ++ commands.map command := by
 induction commands generalizing ands with
 | nil => exact absurd rfl hne
 | cons atoms rest ih =>
  obtain ⟨hread, hcmd⟩ := reads_command lists ands (h atoms mem_cons_self)
  cases rest with
  | nil => exact ⟨ands, command atoms, by simpa [andText] using hread, hcmd, rfl⟩
  | cons atoms' rest =>
   obtain ⟨ands', cmd', hrest, hcmd', heq⟩ := ih (ands ++ [command atoms]) (cons_ne_nil _ _)
    fun a ha => h a (mem_cons_of_mem _ ha)
   refine ⟨ands', cmd', ?_, hcmd', by rw [heq]; simp⟩
   simpa [andText, intercalate_cons_cons] using hread.and hcmd hrest

theorem reads_source (lists : Script) {src : Source} (hne : src ≠ [])
  (h : ∀ l ∈ src, l ≠ [] ∧ ∀ atoms ∈ l, commandOk atoms = true) :
  ∃ lists' ands' cmd', Reads (between lists [] {}) src.text (between lists' ands' cmd') ∧ cmd' ≠ {} ∧
   lists' ++ [ands' ++ [cmd']] = lists ++ src.script := by
 induction src generalizing lists with
 | nil => exact absurd rfl hne
 | cons l rest ih =>
  obtain ⟨hl, hok⟩ := h l mem_cons_self
  obtain ⟨ands', cmd', hread, hcmd', heq⟩ := reads_ands lists [] hl hok
  rw [nil_append] at heq
  cases rest with
  | nil =>
   refine ⟨lists, ands', cmd', by simpa [Source.text] using hread, hcmd', ?_⟩
   rw [heq]
   rfl
  | cons l' rest =>
   obtain ⟨lists'', ands'', cmd'', hrest, hcmd'', heq'⟩ := ih (lists ++ [ands' ++ [cmd']]) (cons_ne_nil _ _)
    fun m hm => h m (mem_cons_of_mem _ hm)
   refine ⟨lists'', ands'', cmd'', ?_, hcmd'', ?_⟩
   · simpa [Source.text, intercalate_cons_cons] using hread.seq hcmd' hrest
   · rw [heq', heq]
     simp [Source.script]

end State

theorem parse_source {src : Source} (h : src.ok = true) : parse src.text = some src.script := by
 simp only [Source.ok, and_eq_true, decide_eq_true_eq, List.all_eq_true] at h
 obtain ⟨lists, ands, cmd, hread, hcmd, heq⟩ := State.reads_source [] h.1 h.2
 rw [hread.parse hcmd, heq]
 rfl

theorem State.step_nul (s : State) : s.step nul = none := by
 unfold step
 split <;> rfl

theorem State.nul_of_read {s p : State} {t : Text} (h : s.read t = some p) : nul ∉ t := by
 induction t generalizing s with
 | nil => exact not_mem_nil
 | cons c t ih =>
  obtain ⟨s', hstep, h⟩ := bind_eq_some_iff.mp h
  intro hmem
  rcases mem_cons.mp hmem with rfl | hmem
  · rw [step_nul] at hstep
    cases hstep
  · exact ih h hmem

theorem Source.nul_text {src : Source} (h : src.ok = true) : nul ∉ src.text := by
 obtain ⟨s, hread, -⟩ := bind_eq_some_iff.mp (parse_source h)
 exact State.nul_of_read hread

section Together

variable {k : Token} {atoms atoms' : List Atom} {a : Atom} {cmd : Command}

theorem intercalate_cons (sep t : Text) (ts : List Text) :
  sep.intercalate (t :: ts) = t ++ ts.flatMap fun t' => sep ++ t' := by
 induction ts generalizing t with
 | nil => simp
 | cons t' ts ih =>
  rw [intercalate_cons_cons, ih, flatMap_cons]
  simp

theorem commandText_cons : commandText (a :: atoms) = a.text ++ atoms.flatMap fun b => ' ' :: b.text := by
 simp [commandText, intercalate_cons, flatMap_map]

theorem commandText_append (h : atoms ≠ []) :
  commandText (atoms ++ atoms') = commandText atoms ++ atoms'.flatMap fun b => ' ' :: b.text := by
 cases atoms with
 | nil => exact absurd rfl h
 | cons a atoms => simp [commandText_cons]

theorem andText_cons (atoms : List Atom) (rest : List (List Atom)) :
  andText (atoms :: rest) = commandText atoms ++ rest.flatMap fun b => " && ".toList ++ commandText b := by
 rw [andText, map_cons, intercalate_cons, flatMap_map]

theorem text_singleton (l : List (List Atom)) : Source.text [l] = andText l := by simp [Source.text]

theorem parse_command (h : commandOk atoms = true) : parse (commandText atoms) = some [[command atoms]] := by
 have hok : Source.ok [[atoms]] = true := by simp [Source.ok, h]
 have hparse := parse_source hok
 rwa [text_singleton, andText_cons, flatMap_nil, append_nil] at hparse

def Atom.later : Atom → Bool
 | .word t => t.ok
 | .assign _ _ => false
 | .stdout file => file.ok
 | .stderr file => file.ok

theorem atomsOk_eq (hcmd : cmd.words ≠ []) : atomsOk cmd atoms = atoms.all Atom.later := by
 induction atoms generalizing cmd with
 | nil => rfl
 | cons a atoms ih =>
  rw [atomsOk, all_cons, ih (by cases a <;> simp [Atom.add, hcmd])]
  cases a <;> simp [Atom.ok, Atom.later, hcmd]

theorem commandOk_cons : commandOk (.word k :: atoms) = (commandOk [.word k] && atoms.all Atom.later) := by
 simp [commandOk, atomsOk, atomsOk_eq (by simp [Atom.add] : (Atom.add {} (.word k)).words ≠ [])]

theorem number_ok (n : Nat) : (Token.bare (Nat.toDigits 10 n)).ok = true := by
 simp only [Token.ok, and_eq_true, decide_eq_true_eq, List.all_eq_true]
 refine ⟨Nat.toDigits_ne_nil, fun c hc => ?_⟩
 have hdigit := Nat.isDigit_of_mem_toDigits (by decide) (by decide) hc
 simp [bareChar, Char.isAlphanum, hdigit]

end Together

end Shell
