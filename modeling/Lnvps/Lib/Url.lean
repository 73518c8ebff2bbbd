import Mathlib.Data.List.DropRight

/-! # Where a URL leads -/

namespace Url

open List Option

abbrev Text := List Char

def unreserved (c : Char) : Bool := c.isAlphanum ∨ c = '-' ∨ c = '.' ∨ c = '_' ∨ c = '~'

def hexDigit (n : Nat) : Char := Char.ofNat (if n < 10 then '0'.toNat + n else 'A'.toNat + (n - 10))

def percentByte (b : UInt8) : Text := ['%', hexDigit (b.toNat / 16), hexDigit (b.toNat % 16)]

def urlencodingEncode (s : Text) : Text :=
 s.flatMap fun c => if unreserved c then [c] else (String.utf8EncodeChar c).flatMap percentByte

abbrev HostParser := Bool → Text → Option Text

structure Record where
 scheme : Text
 host : Option Text := none
 port : Option Nat := none
 deriving DecidableEq

variable (c : Char)

def c0OrSpace : Bool := c ≤ ' '

def tabOrNewline : Bool := c = '\t' ∨ c = '\n' ∨ c = '\r'

def schemeChar : Bool := c.isAlphanum ∨ c = '+' ∨ c = '-' ∨ c = '.'

def slash : Bool := c = '/' ∨ c = '\\'

def ends (special : Bool) (c : Char) : Bool := c = '/' ∨ c = '?' ∨ c = '#' ∨ (special ∧ c = '\\')

def lower (s : Text) : Text := s.map Char.toLower

def file : Text := "file".toList

def special (scheme : Text) : Bool :=
 [file, "http".toList, "https".toList, "ws".toList, "wss".toList, "ftp".toList].contains scheme

def defaultPort (scheme : Text) : Option Nat :=
 if scheme = "http".toList ∨ scheme = "ws".toList then some 80
 else if scheme = "https".toList ∨ scheme = "wss".toList then some 443
 else if scheme = "ftp".toList then some 21
 else none

section States

variable (parseHost : HostParser)

def portEnd (scheme host buffer : Text) : Option Record :=
 if buffer = [] then some { scheme, host := some host }
 else
  let port := buffer.foldl (fun n c => 10 * n + (c.toNat - '0'.toNat)) 0
  if 65535 < port then none
  else some { scheme, host := some host, port := if defaultPort scheme = some port then none else some port }

def portState (scheme host : Text) : Text → Text → Option Record
 | buffer, [] => portEnd scheme host buffer
 | buffer, c :: rest =>
  if c.isDigit then portState scheme host (buffer ++ [c]) rest
  else if ends (special scheme) c then portEnd scheme host buffer
  else none

def hostEnd (scheme buffer : Text) : Option Record :=
 if special scheme ∧ buffer = [] then none
 else (parseHost (!special scheme) buffer).map fun host => { scheme, host := some host }

def hostState (scheme : Text) : Bool → Text → Text → Option Record
 | _, buffer, [] => hostEnd parseHost scheme buffer
 | insideBrackets, buffer, c :: rest =>
  if c = ':' ∧ !insideBrackets then
   if buffer = [] then none
   else (parseHost (!special scheme) buffer).bind fun host => portState scheme host [] rest
  else if ends (special scheme) c then hostEnd parseHost scheme buffer
  else hostState scheme (if c = '[' then true else if c = ']' then false else insideBrackets) (buffer ++ [c]) rest

def authority (scheme : Text) : Bool → Text → Text → Option Record
 | atSignSeen, buffer, [] =>
  if atSignSeen ∧ buffer = [] then none else hostState parseHost scheme false [] buffer
 | atSignSeen, buffer, c :: rest =>
  if c = '@' then authority scheme true [] rest
  else if ends (special scheme) c then
   if atSignSeen ∧ buffer = [] then none else hostState parseHost scheme false [] (buffer ++ c :: rest)
  else authority scheme atSignSeen (buffer ++ [c]) rest

def specialAuthorityIgnoreSlashes (scheme : Text) : Text → Option Record
 | [] => authority parseHost scheme false [] []
 | c :: rest =>
  if slash c then specialAuthorityIgnoreSlashes scheme rest else authority parseHost scheme false [] (c :: rest)

def specialAuthoritySlashes (scheme : Text) : Text → Option Record
 | '/' :: '/' :: rest => specialAuthorityIgnoreSlashes parseHost scheme rest
 | rest => specialAuthorityIgnoreSlashes parseHost scheme rest

def relativeSlash (base : Record) : Text → Option Record
 | [] => some base
 | c :: rest =>
  if special base.scheme ∧ slash c then specialAuthorityIgnoreSlashes parseHost base.scheme rest
  else if c = '/' then authority parseHost base.scheme false [] rest
  else some base

def relative (base : Record) : Text → Option Record
 | [] => some base
 | c :: rest =>
  if c = '/' ∨ (special base.scheme ∧ c = '\\') then relativeSlash parseHost base rest else some base

def specialRelativeOrAuthority (scheme : Text) (base : Record) : Text → Option Record
 | '/' :: '/' :: rest => specialAuthorityIgnoreSlashes parseHost scheme rest
 | rest => relative parseHost base rest

def windowsDriveLetter : Text → Bool
 | [c, d] => c.isAlpha ∧ (d = ':' ∨ d = '|')
 | _ => false

def fileHostEnd (buffer : Text) : Option Record :=
 if buffer = [] ∨ windowsDriveLetter buffer then some { scheme := file, host := some [] }
 else (parseHost false buffer).map fun host =>
  { scheme := file, host := some (if host = "localhost".toList then [] else host) }

def fileHost : Text → Text → Option Record
 | buffer, [] => fileHostEnd parseHost buffer
 | buffer, c :: rest => if ends true c then fileHostEnd parseHost buffer else fileHost (buffer ++ [c]) rest

def fileBase (base : Option Record) : Record :=
 match base with
 | some b => if b.scheme = file then b else { scheme := file, host := some [] }
 | none => { scheme := file, host := some [] }

def fileSlash (base : Option Record) : Text → Option Record
 | [] => some (fileBase base)
 | c :: rest => if slash c then fileHost parseHost [] rest else some (fileBase base)

def fileState (base : Option Record) : Text → Option Record
 | [] => some (fileBase base)
 | c :: rest => if slash c then fileSlash parseHost base rest else some (fileBase base)

def pathOrAuthority (scheme : Text) : Text → Option Record
 | '/' :: rest => authority parseHost scheme false [] rest
 | _ => some { scheme }

def noScheme (base : Option Record) (input : Text) : Option Record :=
 match base with
 | none => none
 | some b => if b.scheme = file then fileState parseHost base input else relative parseHost b input

def schemeEnd (base : Option Record) (scheme rest : Text) : Option Record :=
 if scheme = file then fileState parseHost base rest
 else if special scheme then
  match base with
  | some b =>
   if b.scheme = scheme then specialRelativeOrAuthority parseHost scheme b rest
   else specialAuthoritySlashes parseHost scheme rest
  | none => specialAuthoritySlashes parseHost scheme rest
 else match rest with
  | '/' :: rest => pathOrAuthority parseHost scheme rest
  | _ => some { scheme }

def schemeState (base : Option Record) (input : Text) : Text → Text → Option Record
 | _, [] => noScheme parseHost base input
 | buffer, c :: rest =>
  if schemeChar c then schemeState base input (buffer ++ [c.toLower]) rest
  else if c = ':' then schemeEnd parseHost base buffer rest
  else noScheme parseHost base input

def machine (base : Option Record) : Text → Option Record
 | [] => noScheme parseHost base []
 | c :: rest =>
  if c.isAlpha then schemeState parseHost base (c :: rest) [c.toLower] rest
  else noScheme parseHost base (c :: rest)

def clean (input : Text) : Text := ((input.dropWhile c0OrSpace).rdropWhile c0OrSpace).filter (!tabOrNewline ·)

def parse (base : Option Record) (input : Text) : Option Record := machine parseHost base (clean input)

end States

def splitScheme (s : Text) : Option (Text × Text) :=
 match s.takeWhile schemeChar, s.dropWhile schemeChar with
 | c :: name, ':' :: rest => if c.isAlpha then some (lower (c :: name), rest) else none
 | _, _ => none

def twoSlashes : Text → Bool
 | c :: d :: _ => slash c && slash d
 | _ => false

def afterAt (s : Text) : Text := s.rtakeWhile (· ≠ '@')

def site (parseHost : HostParser) (scheme text : Text) : Option Record :=
 let name := text.takeWhile (!ends (special scheme) ·)
 if '@' ∈ name ∧ afterAt name = [] then none else hostState parseHost scheme false [] (afterAt name)

inductive Form
 | site (scheme text : Text)
 | file (text : Text)
 | base
 | hostless (scheme : Text)

def relativeForm (base : Record) (text : Text) : Form :=
 if twoSlashes text then .site base.scheme (text.dropWhile slash) else .base

def otherForm (scheme : Text) : Text → Form
 | '/' :: '/' :: rest => .site scheme rest
 | _ => .hostless scheme

def form (base : Record) (text : Text) : Form :=
 match splitScheme text with
 | none => relativeForm base text
 | some (scheme, rest) =>
  if scheme = file then .file (if twoSlashes rest then rest.drop 2 else [])
  else if special scheme then
   if base.scheme = scheme then relativeForm base rest else .site scheme (rest.dropWhile slash)
  else otherForm scheme rest

def Form.record (parseHost : HostParser) (base : Record) : Form → Option Record
 | .site scheme text => Url.site parseHost scheme text
 | .file text => fileHostEnd parseHost (text.takeWhile (!ends true ·))
 | .base => some base
 | .hostless scheme => some { scheme }

section Machine

variable {parseHost : HostParser} {base : Record} {scheme host : Text} {e : Char} {p : Char → Bool}

theorem portState_append (he : ends (special scheme) e = true) (buffer x y : Text) :
  portState scheme host buffer (x ++ e :: y) = portState scheme host buffer x := by
 induction x generalizing buffer with
 | nil =>
  have hdigit : e.isDigit = false := by
   simp only [ends, decide_eq_true_eq] at he
   rcases he with rfl | rfl | rfl | ⟨-, rfl⟩ <;> rfl
  simp [portState, hdigit, he]
 | cons c x ih => simp only [cons_append, portState, ih]

theorem hostState_append (he : ends (special scheme) e = true) (inside : Bool) (buffer x y : Text) :
  hostState parseHost scheme inside buffer (x ++ e :: y) = hostState parseHost scheme inside buffer x := by
 induction x generalizing inside buffer with
 | nil =>
  have hcolon : e ≠ ':' := by
   rintro rfl
   simp [ends] at he
  simp [hostState, hcolon, he]
 | cons c x ih => simp only [cons_append, hostState, ih, portState_append he]

theorem takeWhile_append_ends (he : p e = false) (x y : Text) : (x ++ e :: y).takeWhile p = x.takeWhile p := by
 induction x with
 | nil => simp [he]
 | cons c x ih => simp only [cons_append, takeWhile_cons, ih]

theorem dropWhile_append_ends (he : p e = false) (x y : Text) :
  (x ++ e :: y).dropWhile p = x.dropWhile p ++ e :: y := by
 induction x with
 | nil => simp [he]
 | cons c x ih =>
  simp only [cons_append, dropWhile_cons, ih]
  split <;> rfl

theorem afterAt_of_not_mem {s : Text} (h : '@' ∉ s) : afterAt s = s := by
 rw [afterAt, rtakeWhile_eq_self_iff]
 intro c hc
 simp only [ne_eq, decide_not, Bool.not_eq_true', decide_eq_false_iff_not]
 rintro rfl
 exact h hc

theorem afterAt_append (x y : Text) : afterAt (x ++ '@' :: y) = afterAt y := by
 unfold afterAt List.rtakeWhile
 rw [reverse_append, reverse_cons, append_assoc, singleton_append,
  takeWhile_append_ends (by simp)]

theorem authority_eq (seen : Bool) (buffer s : Text) (hbuffer : '@' ∉ buffer) :
  authority parseHost scheme seen buffer s =
   let name := s.takeWhile (!ends (special scheme) ·)
   if (seen = true ∨ '@' ∈ name) ∧ afterAt (buffer ++ name) = [] then none
   else hostState parseHost scheme false [] (afterAt (buffer ++ name)) := by
 induction s generalizing seen buffer with
 | nil => simp [authority, afterAt_of_not_mem hbuffer]
 | cons c s ih =>
  by_cases hat : c = '@'
  · subst hat
    have hends : ends (special scheme) '@' = false := by simp [ends]
    simp only [authority, if_pos, ih true [] (not_mem_nil), takeWhile_cons, hends, Bool.not_false,
     mem_cons, true_or, or_true, afterAt_append, nil_append]
  by_cases hends : ends (special scheme) c = true
  · have hstop : hostState parseHost scheme false [] (buffer ++ c :: s) =
      hostState parseHost scheme false [] buffer := hostState_append hends ..
    simp [authority, hat, hends, hstop, afterAt_of_not_mem hbuffer]
  have hbuffer' : '@' ∉ buffer ++ [c] := by
   simp only [mem_append, mem_singleton, not_or]
   exact ⟨hbuffer, fun h => hat h.symm⟩
  have hat' : '@' ≠ c := fun h => hat h.symm
  simp only [authority, if_neg hat, hends, Bool.false_eq_true, if_false, ih seen _ hbuffer', takeWhile_cons,
   Bool.not_false, if_true, mem_cons, hat', false_or, append_assoc, singleton_append]

theorem authority_eq_site (s : Text) : authority parseHost scheme false [] s = site parseHost scheme s := by
 rw [authority_eq false [] s not_mem_nil]
 simp [site]

theorem specialAuthorityIgnoreSlashes_eq (s : Text) :
  specialAuthorityIgnoreSlashes parseHost scheme s = site parseHost scheme (s.dropWhile slash) := by
 induction s with
 | nil => exact authority_eq_site []
 | cons c s ih =>
  rw [specialAuthorityIgnoreSlashes, dropWhile_cons]
  split
  · exact ih
  · exact authority_eq_site (c :: s)

theorem specialAuthoritySlashes_eq (s : Text) :
  specialAuthoritySlashes parseHost scheme s = site parseHost scheme (s.dropWhile slash) := by
 unfold specialAuthoritySlashes
 split
 · rw [specialAuthorityIgnoreSlashes_eq]
   simp [slash]
 · exact specialAuthorityIgnoreSlashes_eq _

theorem relative_eq (hspecial : special base.scheme = true) (s : Text) :
  relative parseHost base s = (relativeForm base s).record parseHost base := by
 match s with
 | [] => rfl
 | [c] =>
  simp [relative, relativeSlash, relativeForm, twoSlashes, Form.record]
 | c :: d :: s =>
  by_cases hc : slash c = true
  · have hc' : c = '/' ∨ (special base.scheme = true ∧ c = '\\') := by
     simpa [slash, hspecial] using hc
    by_cases hd : slash d = true
    · rw [relative, if_pos hc', relativeSlash, if_pos ⟨hspecial, hd⟩, specialAuthorityIgnoreSlashes_eq]
      simp [relativeForm, twoSlashes, hc, hd, Form.record]
    have hd' : d ≠ '/' := by
     rintro rfl
     exact hd rfl
    simp [relative, hc', relativeSlash, hd, hd', relativeForm, twoSlashes, Form.record]
  · have hc' : ¬ (c = '/' ∨ (special base.scheme = true ∧ c = '\\')) := by
     simpa [slash, hspecial] using hc
    simp [relative, hc', relativeForm, twoSlashes, hc, Form.record]

theorem specialRelativeOrAuthority_eq (hspecial : special base.scheme = true) (s : Text) :
  specialRelativeOrAuthority parseHost base.scheme base s = (relativeForm base s).record parseHost base := by
 unfold specialRelativeOrAuthority
 split
 · rw [specialAuthorityIgnoreSlashes_eq]
   simp [relativeForm, twoSlashes, slash, Form.record]
 · exact relative_eq hspecial _

theorem fileHost_eq (buffer s : Text) :
  fileHost parseHost buffer s = fileHostEnd parseHost (buffer ++ s.takeWhile (!ends true ·)) := by
 induction s generalizing buffer with
 | nil => simp [fileHost]
 | cons c s ih =>
  rw [fileHost, takeWhile_cons]
  by_cases hends : ends true c = true
  · simp [hends]
  · simp [hends, ih]

theorem fileState_eq (hfile : base.scheme ≠ file) (s : Text) :
  fileState parseHost (some base) s =
   fileHostEnd parseHost ((if twoSlashes s then s.drop 2 else []).takeWhile (!ends true ·)) := by
 have hempty : some (fileBase (some base)) = fileHostEnd parseHost [] := by
  simp [fileBase, hfile, fileHostEnd]
 match s with
 | [] => exact hempty
 | [c] => simp [fileState, fileSlash, twoSlashes, hempty]
 | c :: d :: s =>
  by_cases hc : slash c = true
  · by_cases hd : slash d = true
    · simp [fileState, fileSlash, twoSlashes, hc, hd, fileHost_eq]
    · simp [fileState, fileSlash, twoSlashes, hc, hd, hempty]
  · simp [fileState, twoSlashes, hc, hempty]

theorem schemeState_eq (base : Option Record) (input buffer s : Text) :
  schemeState parseHost base input buffer s =
   match s.dropWhile schemeChar with
   | ':' :: rest => schemeEnd parseHost base (buffer ++ lower (s.takeWhile schemeChar)) rest
   | _ => noScheme parseHost base input := by
 induction s generalizing buffer with
 | nil => rfl
 | cons c s ih =>
  rw [schemeState, dropWhile_cons, takeWhile_cons]
  by_cases hc : schemeChar c = true
  · simp only [hc, if_true, ih, lower, map_cons, append_assoc, singleton_append]
  by_cases hcolon : c = ':'
  · subst hcolon
    simp [hc, lower]
  · simp [hc, hcolon]

theorem machine_eq_split (base : Option Record) (s : Text) :
  machine parseHost base s =
   match splitScheme s with
   | some (scheme, rest) => schemeEnd parseHost base scheme rest
   | none => noScheme parseHost base s := by
 match s with
 | [] => rfl
 | c :: s =>
  rw [machine]
  by_cases hc : c.isAlpha = true
  · have hchar : schemeChar c = true := by
     simp [schemeChar, Char.isAlphanum, hc]
    simp only [hc, if_true, schemeState_eq, splitScheme, takeWhile_cons, dropWhile_cons, hchar]
    rcases s.dropWhile schemeChar with _ | ⟨d, rest⟩
    · rfl
    by_cases hd : d = ':'
    · subst hd
      simp [hc, lower]
    · simp [hd]
  · have hnone : splitScheme (c :: s) = none := by
     unfold splitScheme
     split
     · rename_i d name rest htake _
       have : c = d := by
        rw [takeWhile_cons] at htake
        split at htake
        · exact (List.cons.inj htake).1
        · cases htake
       rw [if_neg (this ▸ hc)]
     · rfl
    simp only [hc, Bool.false_eq_true, if_false, hnone]

theorem machine_eq (hspecial : special base.scheme = true) (hfile : base.scheme ≠ file) (s : Text) :
  machine parseHost (some base) s = (form base s).record parseHost base := by
 rw [machine_eq_split, form]
 rcases splitScheme s with _ | ⟨scheme, rest⟩
 · simp only [noScheme, if_neg hfile]
   exact relative_eq hspecial s
 simp only [schemeEnd]
 by_cases hf : scheme = file
 · simp only [hf, if_true]
   exact fileState_eq hfile rest
 simp only [if_neg hf]
 by_cases hs : special scheme = true
 · simp only [hs, if_true]
   by_cases hb : base.scheme = scheme
   · subst hb
     simp only [if_true]
     exact specialRelativeOrAuthority_eq hspecial rest
   · simp only [if_neg hb]
     exact specialAuthoritySlashes_eq rest
 · simp only [hs, Bool.false_eq_true, if_false]
   unfold otherForm pathOrAuthority
   split
   · rename_i rest
     split
     · exact authority_eq_site _
     rename_i hno
     split
     · rename_i h
       obtain rfl := (List.cons.inj h).2
       exact absurd rfl (hno _)
     · rfl
   · rename_i hno
     split
     · exact absurd rfl (hno _)
     · rfl

theorem machine_absolute {s rest : Text} (base : Option Record)
  (hsplit : splitScheme s = some (scheme, '/' :: '/' :: rest))
  (hspecial : special scheme = true) (hfile : scheme ≠ file) :
  machine parseHost base s = site parseHost scheme (rest.dropWhile slash) := by
 rw [machine_eq_split, hsplit]
 simp only [schemeEnd, if_neg hfile, hspecial, if_true]
 rcases base with _ | b
 · exact specialAuthorityIgnoreSlashes_eq rest
 by_cases hb : b.scheme = scheme
 · simp only [hb, if_true]
   exact specialAuthorityIgnoreSlashes_eq rest
 · simp only [if_neg hb]
   exact specialAuthorityIgnoreSlashes_eq rest

end Machine

section Fragment

variable {parseHost : HostParser} {base : Record} {scheme : Text}

theorem site_append {e : Char} (he : ends (special scheme) e = true) (x y : Text) :
  site parseHost scheme (x ++ e :: y) = site parseHost scheme x := by
 unfold site
 rw [takeWhile_append_ends (by simp [he])]

theorem ends_fragment (special : Bool) : ends special '#' = true := by
 simp [ends]

variable (x y : Text)

theorem splitScheme_fragment :
  splitScheme (x ++ '#' :: y) = (splitScheme x).map fun split => (split.1, split.2 ++ '#' :: y) := by
 have hchar : schemeChar '#' = false := by decide
 unfold splitScheme
 rw [takeWhile_append_ends hchar, dropWhile_append_ends hchar]
 rcases x.takeWhile schemeChar with _ | ⟨c, name⟩
 · rfl
 rcases x.dropWhile schemeChar with _ | ⟨d, rest⟩
 · rfl
 by_cases hd : d = ':'
 · subst hd
   simp only [cons_append]
   split <;> rfl
 · simp [hd]

theorem twoSlashes_fragment : twoSlashes (x ++ '#' :: y) = twoSlashes x := by
 match x with
 | [] => cases y <;> rfl
 | [c] => simp [twoSlashes, slash]
 | c :: d :: x => rfl

theorem relativeForm_fragment :
  (relativeForm base (x ++ '#' :: y)).record parseHost base = (relativeForm base x).record parseHost base := by
 unfold relativeForm
 rw [twoSlashes_fragment, dropWhile_append_ends (by decide)]
 split
 · exact site_append (ends_fragment _) _ _
 · rfl

theorem otherForm_fragment :
  (otherForm scheme (x ++ '#' :: y)).record parseHost base = (otherForm scheme x).record parseHost base := by
 match x with
 | [] => rfl
 | [c] => simp [otherForm, Form.record]
 | c :: d :: x =>
  by_cases hcd : c = '/' ∧ d = '/'
  · obtain ⟨rfl, rfl⟩ := hcd
    exact site_append (ends_fragment _) _ _
  have hno : ∀ z : Text, otherForm scheme (c :: d :: z) = .hostless scheme := by
   intro z
   unfold otherForm
   split
   · rename_i h
     simp only [List.cons.injEq] at h
     exact absurd ⟨h.1, h.2.1⟩ hcd
   · rfl
  simp only [cons_append, hno]

theorem form_fragment :
  (form base (x ++ '#' :: y)).record parseHost base = (form base x).record parseHost base := by
 unfold form
 rw [splitScheme_fragment]
 rcases splitScheme x with _ | ⟨scheme, rest⟩
 · exact relativeForm_fragment x y
 simp only [map_some]
 by_cases hf : scheme = file
 · simp only [hf, if_true, Form.record, twoSlashes_fragment]
   split
   · rename_i htwo
     match rest, htwo with
     | c :: d :: rest, _ =>
      simp only [cons_append, drop_succ_cons, drop_zero]
      rw [takeWhile_append_ends (by simp [ends])]
   · rfl
 · simp only [if_neg hf]
   by_cases hs : special scheme = true
   · simp only [hs, if_true]
     by_cases hb : base.scheme = scheme
     · simp only [hb, if_true]
       exact relativeForm_fragment rest y
     · simp only [if_neg hb, dropWhile_append_ends (show slash '#' = false by decide)]
       exact site_append (ends_fragment _) _ _
   · simp only [hs, Bool.false_eq_true, if_false]
     exact otherForm_fragment rest y

end Fragment

section Append

variable {parseHost : HostParser} {scheme : Text}

def start (input : Text) : Text := (input.dropWhile c0OrSpace).filter (!tabOrNewline ·)

theorem not_tabOrNewline {c : Char} (h : c0OrSpace c = false) : tabOrNewline c = false := by
 simp only [tabOrNewline, decide_eq_false_iff_not, not_or]
 refine ⟨?_, ?_, ?_⟩ <;>
 · rintro rfl
   cases h

variable {x y s : Text} {url : Record}

theorem filter_of_visible (hx : ∀ c ∈ x, c0OrSpace c = false) : x.filter (!tabOrNewline ·) = x := by
 rw [filter_eq_self]
 intro c hc
 simp [not_tabOrNewline (hx c hc)]

theorem dropWhile_of_visible (hx : ∀ c ∈ x, c0OrSpace c = false) (hne : x ≠ []) :
  (x ++ y).dropWhile c0OrSpace = x ++ y := by
 match x, hne with
 | c :: x, _ => rw [cons_append, dropWhile_cons, hx c mem_cons_self, if_neg Bool.false_ne_true]

theorem rdropWhile_of_visible (hy : ∀ c ∈ y, c0OrSpace c = false) (hne : y ≠ []) :
  (x ++ y).rdropWhile c0OrSpace = x ++ y := by
 rw [rdropWhile_eq_self_iff]
 intro hl
 rw [getLast_append_of_ne_nil _ hne, hy _ (getLast_mem hne)]
 exact Bool.false_ne_true

theorem clean_of_visible (hx : ∀ c ∈ x, c0OrSpace c = false) (hne : x ≠ []) : clean x = x := by
 have hdrop : x.dropWhile c0OrSpace = x := by
  simpa using dropWhile_of_visible (y := []) hx hne
 have hlast : x.rdropWhile c0OrSpace = x := by
  simpa using rdropWhile_of_visible (x := []) hx hne
 rw [clean, hdrop, hlast, filter_of_visible hx]

theorem clean_append (hx : ∃ c ∈ x, c0OrSpace c = false) (hy : ∀ c ∈ y, c0OrSpace c = false)
  (hne : y ≠ []) : clean (x ++ y) = start x ++ y := by
 have hdrop : x.dropWhile c0OrSpace ≠ [] := by
  obtain ⟨c, hc, hcs⟩ := hx
  intro h
  rw [dropWhile_eq_nil_iff.mp h c hc] at hcs
  cases hcs
 rw [clean, dropWhile_append, if_neg (by simpa using hdrop), rdropWhile_of_visible hy hne, filter_append,
  filter_of_visible hy, start]

theorem start_of_plain (hx : ∀ c ∈ x, c0OrSpace c = false) (hne : x ≠ []) :
  start (x ++ y) = x ++ y.filter (!tabOrNewline ·) := by
 rw [start, dropWhile_of_visible hx hne, filter_append, filter_of_visible hx]

theorem splitScheme_eq_some {rest : Text} :
  splitScheme s = some (scheme, rest) ↔
   ∃ c name, c.isAlpha = true ∧ (∀ d ∈ c :: name, schemeChar d = true) ∧ s = c :: name ++ ':' :: rest ∧
    scheme = lower (c :: name) := by
 constructor
 · intro h
   unfold splitScheme at h
   split at h
   · rename_i c name rest' htake hdrop
     split at h
     · rename_i hc
       cases h
       refine ⟨c, name, hc, ?_, ?_, rfl⟩
       · intro d hd
         rw [← htake] at hd
         exact mem_takeWhile_imp hd
       · rw [← htake, ← hdrop, takeWhile_append_dropWhile]
     · cases h
   · cases h
 · rintro ⟨c, name, hc, hname, rfl, rfl⟩
   have hcolon : schemeChar ':' = false := by decide
   have htake : (c :: name).takeWhile schemeChar = c :: name := takeWhile_eq_self_iff.mpr hname
   have hdrop : (c :: name).dropWhile schemeChar = [] := dropWhile_eq_nil_iff.mpr hname
   unfold splitScheme
   rw [takeWhile_append_ends hcolon, dropWhile_append_ends hcolon, htake, hdrop]
   simp [hc]

theorem splitScheme_append {rest : Text} (h : splitScheme s = some (scheme, rest)) (y : Text) :
  splitScheme (s ++ y) = some (scheme, rest ++ y) := by
 obtain ⟨c, name, hc, hname, rfl, hscheme⟩ := splitScheme_eq_some.mp h
 exact splitScheme_eq_some.mpr ⟨c, name, hc, hname, by simp, hscheme⟩

theorem hostState_name (hx : ∀ c ∈ x, c ≠ ':' ∧ c ≠ '[' ∧ c ≠ ']' ∧ ends (special scheme) c = false)
  (buffer y : Text) :
  hostState parseHost scheme false buffer (x ++ y) = hostState parseHost scheme false (buffer ++ x) y := by
 induction x generalizing buffer with
 | nil => simp
 | cons c x ih =>
  obtain ⟨hcolon, hopen, hclose, hends⟩ := hx c mem_cons_self
  have hrest := ih (fun d hd => hx d (mem_cons_of_mem _ hd)) (buffer ++ [c])
  simp only [cons_append, hostState, hcolon, false_and, if_false, hends, Bool.false_eq_true, hopen, hclose,
   hrest, append_assoc, nil_append]

theorem portState_record {host buffer : Text} (h : portState scheme host buffer s = some url) :
  url.scheme = scheme ∧ url.host = some host := by
 have hend : ∀ buffer, portEnd scheme host buffer = some url → url.scheme = scheme ∧ url.host = some host := by
  intro buffer h
  simp only [portEnd] at h
  split at h
  · exact Option.some.inj h ▸ ⟨rfl, rfl⟩
  · split at h
    · cases h
    · exact Option.some.inj h ▸ ⟨rfl, rfl⟩
 induction s generalizing buffer with
 | nil => exact hend buffer h
 | cons c s ih =>
  rw [portState] at h
  split at h
  · exact ih h
  · split at h
    · exact hend buffer h
    · cases h

theorem hostState_record {inside : Bool} {buffer : Text}
  (h : hostState parseHost scheme inside buffer s = some url) : url.scheme = scheme ∧ url.host.isSome = true := by
 have hend : ∀ buffer, hostEnd parseHost scheme buffer = some url → url.scheme = scheme ∧ url.host.isSome = true := by
  intro buffer h
  rw [hostEnd] at h
  split at h
  · cases h
  · obtain ⟨host, -, rfl⟩ := map_eq_some_iff.mp h
    exact ⟨rfl, rfl⟩
 induction s generalizing inside buffer with
 | nil => exact hend buffer h
 | cons c s ih =>
  rw [hostState] at h
  split at h
  · split at h
    · cases h
    · obtain ⟨host, -, hport⟩ := bind_eq_some_iff.mp h
      obtain ⟨hscheme, hhost⟩ := portState_record hport
      exact ⟨hscheme, hhost ▸ rfl⟩
  · split at h
    · exact hend buffer h
    · exact ih h

theorem site_record {text : Text} (h : site parseHost scheme text = some url) :
  url.scheme = scheme ∧ url.host.isSome = true := by
 simp only [site] at h
 split at h
 · cases h
 · exact hostState_record h

end Append

end Url
