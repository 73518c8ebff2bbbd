import Lnvps.Lib.Text

/-! # Checksum files -/

namespace Lnvps

open Text List Option

inductive ShasumAlgorithm where
 | sha256
 | sha384
 | sha512
 deriving DecidableEq

namespace ShasumAlgorithm

def fromHexLen : Nat → Option ShasumAlgorithm
 | 64 => some .sha256
 | 96 => some .sha384
 | 128 => some .sha512
 | _ => none

def hexLen : ShasumAlgorithm → Nat
 | .sha256 => 64
 | .sha384 => 96
 | .sha512 => 128

def tag : ShasumAlgorithm → List Char
 | .sha256 => "SHA256".toList
 | .sha384 => "SHA384".toList
 | .sha512 => "SHA512".toList

theorem fromHexLen_eq_some {n : Nat} {a : ShasumAlgorithm} : fromHexLen n = some a ↔ n = a.hexLen := by
 constructor
 · intro h
   unfold fromHexLen at h
   split at h
   · exact Option.some.inj h ▸ rfl
   · exact Option.some.inj h ▸ rfl
   · exact Option.some.inj h ▸ rfl
   · exact nomatch h
 · rintro rfl
   cases a <;> rfl

theorem tag_length (a : ShasumAlgorithm) : a.tag.length = 6 := by cases a <;> rfl

theorem lt_hexLen (a : ShasumAlgorithm) : 6 < a.hexLen := by cases a <;> decide

end ShasumAlgorithm

structure ShasumEntry where
 algorithm : ShasumAlgorithm
 (checksum filename : List Char)
 deriving DecidableEq

namespace Shasum

def isWhitespace (c : Char) : Bool :=
 (9 ≤ c.toNat && c.toNat ≤ 13) || (0x2000 ≤ c.toNat && c.toNat ≤ 0x200a) ||
  c.toNat ∈ [0x20, 0x85, 0xa0, 0x1680, 0x2028, 0x2029, 0x202f, 0x205f, 0x3000]

def isAsciiWhitespace (c : Char) : Bool := c.toNat ∈ [0x20, 9, 10, 12, 13]

def hexDigits : List Char := "0123456789abcdefABCDEF".toList

def isHexDigit (c : Char) : Bool := c ∈ hexDigits

def toUppercase (s : List Char) : List Char := s.map fun c => if c = 'ſ' then 'S' else c.toUpper

def algorithmOfTag (s : List Char) : Option ShasumAlgorithm :=
 [ShasumAlgorithm.sha256, .sha384, .sha512].find? (·.tag = toUppercase s)

def parseBsdLine (line : List Char) : Option ShasumEntry := do
 let (tag, rest) ← splitOnce (· = ' ') line
 let algorithm ← algorithmOfTag tag
 let inner ← (trim isWhitespace rest).dropPrefix? ['(']
 let (filename, value) ← rsplitOnce (· = ')') inner
 let digits ← (trim isWhitespace value).dropPrefix? ['=']
 let checksum := trim isWhitespace digits
 if checksum.all isHexDigit then
  some { algorithm, checksum := checksum.map Char.toLower, filename := trim isWhitespace filename }
 else none

def parseGnuLine (line : List Char) : Option ShasumEntry := do
 let (digits, rest) ← splitOnce isAsciiWhitespace line
 let filename := trim isWhitespace ((trim isWhitespace rest).dropWhile (· = '*'))
 let checksum := trim isWhitespace digits
 if filename = [] ∨ ¬checksum.all isHexDigit then none
 else
  let algorithm ← ShasumAlgorithm.fromHexLen checksum.length
  some { algorithm, checksum := checksum.map Char.toLower, filename }

def parseBareDigestLine (line : List Char) : Option ShasumEntry :=
 if line.all isHexDigit then
  (ShasumAlgorithm.fromHexLen line.length).map fun algorithm =>
   { algorithm, checksum := line.map Char.toLower, filename := [] }
 else none

def parseLine (line : List Char) : Option ShasumEntry :=
 (parseBsdLine line).or ((parseGnuLine line).or (parseBareDigestLine line))

def contentLines (content : List Char) : List (List Char) :=
 ((content.splitOn '\n').map (trim isWhitespace)).filter fun line => line ≠ [] ∧ line.head? ≠ some '#'

def parseShasumFile (content : List Char) : List ShasumEntry := (contentLines content).filterMap parseLine

def lowerHex : List Char := "0123456789abcdef".toList

structure RealDigest (e : ShasumEntry) : Prop where
 digits : ∀ c ∈ e.checksum, c ∈ lowerHex
 length : e.checksum.length = e.algorithm.hexLen

structure Listed (e : ShasumEntry) : Prop extends RealDigest e where
 name : e.filename ≠ []
 solid : ∀ c ∈ e.filename, isWhitespace c = false
 unmarked : e.filename.head? ≠ some '*'

def gnuLine (marker : Char) (e : ShasumEntry) : List Char := e.checksum ++ ' ' :: marker :: e.filename

def bsdLine (e : ShasumEntry) : List Char :=
 e.algorithm.tag ++ ' ' :: '(' :: (e.filename ++ ')' :: ' ' :: '=' :: ' ' :: e.checksum)

structure BsdText (a : ShasumAlgorithm) (name digits line : List Char) : Prop where
 hex : ∀ c ∈ digits, isHexDigit c = true
 text : ∃ tag b₁ b₂ b₃ b₄, toUppercase tag = a.tag ∧ (∀ c ∈ b₁ ++ b₂ ++ b₃ ++ b₄, isWhitespace c = true) ∧
  line = tag ++ ' ' :: (b₁ ++ '(' :: (name ++ ')' :: (b₂ ++ '=' :: (b₃ ++ (digits ++ b₄)))))

def render (line : ShasumEntry → List Char) (entries : List ShasumEntry) : List Char :=
 entries.flatMap fun e => line e ++ ['\n']

variable {e : ShasumEntry} {line content : List Char}

theorem lowerHex_facts : ∀ c ∈ lowerHex, isHexDigit c = true ∧ isWhitespace c = false ∧ isAsciiWhitespace c = false ∧
  c.toLower = c ∧ c ≠ '#' ∧ c ≠ ')' ∧ c ≠ '\n' ∧ c ≠ ' ' :=
 @of_decide_eq_true _ (decidableBAll _ _) rfl

theorem toLower_mem {s : List Char} (h : s.all isHexDigit = true) : ∀ c ∈ s.map Char.toLower, c ∈ lowerHex := by
 intro c hc
 obtain ⟨d, hd, rfl⟩ := mem_map.mp hc
 have hdigits : ∀ d ∈ hexDigits, d.toLower ∈ lowerHex := @of_decide_eq_true _ (decidableBAll _ _) rfl
 exact hdigits d (of_decide_eq_true (all_eq_true.mp h d hd))

theorem hexDigits_facts : ∀ c ∈ hexDigits, isWhitespace c = false ∧ c ≠ ')' :=
 @of_decide_eq_true _ (decidableBAll _ _) rfl

theorem algorithmOfTag_iff {tag : List Char} {a : ShasumAlgorithm} :
  algorithmOfTag tag = some a ↔ toUppercase tag = a.tag := by
 constructor
 · intro h
   rw [algorithmOfTag] at h
   simpa [eq_comm] using List.find?_some h
 · intro h
   rw [algorithmOfTag, h]
   cases a <;> decide

theorem parseBsdLine_of_text {a : ShasumAlgorithm} {name digits : List Char} (h : BsdText a name digits line) :
  parseBsdLine line = some ⟨a, digits.map Char.toLower, trim isWhitespace name⟩ := by
 obtain ⟨hhex, tag, b₁, b₂, b₃, b₄, htag, hblank, rfl⟩ := h
 simp only [forall_mem_append] at hblank
 obtain ⟨⟨⟨h₁, h₂⟩, h₃⟩, h₄⟩ := hblank
 have hfacts (c : Char) (hc : c ∈ digits) := hexDigits_facts c (of_decide_eq_true (hhex c hc))
 have hsplit := @splitOnce_append Char (· = ' ') tag
  (b₁ ++ '(' :: (name ++ ')' :: (b₂ ++ '=' :: (b₃ ++ (digits ++ b₄))))) ' ' (fun c hc => ?_) (by simp)
 · have hrest : trim isWhitespace (b₁ ++ '(' :: (name ++ ')' :: (b₂ ++ '=' :: (b₃ ++ (digits ++ b₄))))) =
     '(' :: (name ++ ')' :: (b₂ ++ '=' :: (b₃ ++ (digits ++ b₄)).rdropWhile isWhitespace)) := by
    rw [trim_blanks_append h₁, trim_cons_of_neg (by decide), rdropWhile_append_cons (by decide),
     rdropWhile_append_cons (by decide)]
   have hname := @rsplitOnce_append Char (· = ')') name
    (b₂ ++ '=' :: (b₃ ++ (digits ++ b₄)).rdropWhile isWhitespace) ')' (fun c hc => ?_) (by simp)
   · have hvalue : trim isWhitespace (b₂ ++ '=' :: (b₃ ++ (digits ++ b₄)).rdropWhile isWhitespace) =
       '=' :: (b₃ ++ (digits ++ b₄)).rdropWhile isWhitespace := by
      rw [trim_blanks_append h₂, trim_cons_of_neg (by decide), rdropWhile_idempotent]
     have hdigits : trim isWhitespace ((b₃ ++ (digits ++ b₄)).rdropWhile isWhitespace) = digits := by
      rw [trim_rdropWhile, trim_blanks_append h₃, trim_append_blanks h₄, trim_of_forall fun c hc => (hfacts c hc).1]
     rw [parseBsdLine, hsplit]
     simp only [bind_eq_bind, bind_some, algorithmOfTag_iff.mpr htag, hrest, dropPrefix?_cons, hname, hvalue, hdigits]
     exact if_pos (all_eq_true.mpr hhex)
   · have hblank (hc : isWhitespace c = true) : decide (c = ')') = false := by
      rw [decide_eq_false_iff_not]
      rintro rfl
      exact absurd hc (by decide)
     rcases mem_append.mp hc with hc | hc
     · exact hblank (h₂ c hc)
     rcases mem_cons.mp hc with rfl | hc
     · decide
     rcases mem_append.mp (( rdropWhile_prefix _ _).subset hc) with hc | hc
     · exact hblank (h₃ c hc)
     rcases mem_append.mp hc with hc | hc
     · exact decide_eq_false (hfacts c hc).2
     · exact hblank (h₄ c hc)
 · rw [decide_eq_false_iff_not]
   rintro rfl
   have hmem : ' ' ∈ a.tag := htag ▸ mem_map.mpr ⟨' ', hc, by decide⟩
   cases a <;> exact absurd hmem (by decide)

theorem text_of_parseBsdLine (h : parseBsdLine line = some e) :
  ∃ name digits, BsdText e.algorithm name digits line ∧ e.checksum = digits.map Char.toLower := by
 simp only [parseBsdLine, bind_eq_bind, bind_eq_some_iff] at h
 obtain ⟨⟨tag, rest⟩, htag, algorithm, halgorithm, inner, hinner, ⟨name, value⟩, hname, digits, hdigits, h⟩ := h
 split at h
 · rename_i hhex
   cases h
   obtain ⟨_, hsep, rfl⟩ := eq_append_of_splitOnce htag
   obtain rfl := of_decide_eq_true hsep
   obtain ⟨_, hsep, rfl⟩ := eq_append_of_rsplitOnce hname
   obtain rfl := of_decide_eq_true hsep
   obtain ⟨b₁, b₁', hblank₁, hrest⟩ := exists_trim isWhitespace rest
   obtain ⟨b₂, b₂', hblank₂, hvalue⟩ := exists_trim isWhitespace value
   obtain ⟨b₃, b₃', hblank₃, hsum⟩ := exists_trim isWhitespace digits
   obtain ⟨paren, hparen, hbeq⟩ := dropPrefix?_eq_some_iff.mp hinner
   obtain ⟨equals, hequals, hbeq'⟩ := dropPrefix?_eq_some_iff.mp hdigits
   obtain rfl := eq_of_beq hbeq
   obtain rfl := eq_of_beq hbeq'
   rw [hparen] at hrest
   rw [hequals] at hvalue
   refine ⟨name, trim isWhitespace digits, ⟨all_eq_true.mp hhex, tag, b₁, b₂, b₃, b₃' ++ (b₂' ++ b₁'),
    algorithmOfTag_iff.mp halgorithm, ?_, ?_⟩, rfl⟩
   · simp only [forall_mem_append] at hblank₁ hblank₂ hblank₃ ⊢
     exact ⟨⟨⟨hblank₁.1, hblank₂.1⟩, hblank₃.1⟩, hblank₃.2, hblank₂.2, hblank₁.2⟩
   · conv_lhs => rw [hrest, hvalue, hsum]
     simp
 · exact nomatch h

theorem parseGnuLine_real (h : parseGnuLine line = some e) : RealDigest e := by
 simp only [parseGnuLine, bind_eq_bind, bind_eq_some_iff] at h
 obtain ⟨⟨digits, rest⟩, -, h⟩ := h
 split at h
 · exact nomatch h
 rename_i hdigits
 obtain ⟨algorithm, halgorithm, h⟩ := bind_eq_some_iff.mp h
 cases h
 rw [not_or, not_not] at hdigits
 refine ⟨toLower_mem hdigits.2, ?_⟩
 rw [length_map]
 exact ShasumAlgorithm.fromHexLen_eq_some.mp halgorithm

theorem parseBareDigestLine_real (h : parseBareDigestLine line = some e) : RealDigest e := by
 rw [parseBareDigestLine] at h
 split at h
 · obtain ⟨algorithm, halgorithm, rfl⟩ := map_eq_some_iff.mp h
   refine ⟨toLower_mem ‹_›, ?_⟩
   rw [length_map]
   exact ShasumAlgorithm.fromHexLen_eq_some.mp halgorithm
 · exact nomatch h

theorem parseShasumFile_real_iff : (∀ e ∈ parseShasumFile content, RealDigest e) ↔
  ∀ line ∈ contentLines content, ∀ a name digits, BsdText a name digits line → digits.length = a.hexLen := by
 constructor
 · intro h line hline a name digits htext
   have hreal := h _ (mem_filterMap.mpr ⟨line, hline, by rw [parseLine, parseBsdLine_of_text htext, some_or]⟩)
   simpa using hreal.length
 intro h e he
 obtain ⟨line, hline, he⟩ := mem_filterMap.mp he
 rcases or_eq_some_iff.mp he with hbsd | ⟨-, he⟩
 · obtain ⟨name, digits, htext, hchecksum⟩ := text_of_parseBsdLine hbsd
   refine ⟨hchecksum ▸ toLower_mem (all_eq_true.mpr htext.hex), ?_⟩
   rw [hchecksum, length_map, h line hline _ _ _ htext]
 · rcases or_eq_some_iff.mp he with hgnu | ⟨-, hbare⟩
   · exact parseGnuLine_real hgnu
   · exact parseBareDigestLine_real hbare

theorem checksum_ne_nil (he : RealDigest e) : e.checksum ≠ [] := by
 intro h
 have hlength := he.length
 rw [h, length_nil] at hlength
 have := e.algorithm.lt_hexLen
 omega

theorem checksum_blank (he : RealDigest e) : ∀ c ∈ e.checksum, isWhitespace c = false :=
 fun c hc => (lowerHex_facts c (he.digits c hc)).2.1

theorem checksum_hex (he : RealDigest e) : ∀ c ∈ e.checksum, isHexDigit c = true :=
 fun c hc => (lowerHex_facts c (he.digits c hc)).1

theorem checksum_toLower (he : RealDigest e) : e.checksum.map Char.toLower = e.checksum := by
 conv_rhs => rw [← map_id e.checksum]
 exact map_congr_left fun c hc => (lowerHex_facts c (he.digits c hc)).2.2.2.1

theorem algorithmOfTag_checksum (he : RealDigest e) : algorithmOfTag e.checksum = none := by
 rw [algorithmOfTag, List.find?_eq_none]
 intro a _ ha
 have hlength := congrArg List.length (of_decide_eq_true ha)
 rw [toUppercase, length_map, he.length, a.tag_length] at hlength
 exact e.algorithm.lt_hexLen.ne hlength

theorem parseBsdLine_gnuLine (he : RealDigest e) (marker : Char) : parseBsdLine (gnuLine marker e) = none := by
 have hsplit := @splitOnce_append Char (· = ' ') e.checksum (marker :: e.filename) ' '
  (fun c hc => by simp [(lowerHex_facts c (he.digits c hc)).2.2.2.2.2.2.2]) (by simp)
 simp [parseBsdLine, gnuLine, hsplit, algorithmOfTag_checksum he]

theorem dropWhile_filename (he : Listed e) : e.filename.dropWhile (· = '*') = e.filename := by
 have hname := he.unmarked
 cases h : e.filename with
 | nil => rfl
 | cons c name =>
  rw [h] at hname
  rw [dropWhile_cons, if_neg (by simpa using hname)]

theorem filename_of_marker (he : Listed e) {marker : Char} (hmarker : marker = ' ' ∨ marker = '*') :
  trim isWhitespace ((trim isWhitespace (marker :: e.filename)).dropWhile (· = '*')) = e.filename := by
 rcases hmarker with rfl | rfl
 · rw [trim_cons (by decide), trim_of_forall he.solid, dropWhile_filename he, trim_of_forall he.solid]
 · have hsolid : ∀ c ∈ '*' :: e.filename, isWhitespace c = false := by
    simpa using ⟨by decide, he.solid⟩
   rw [trim_of_forall hsolid, dropWhile_cons, if_pos (by simp), dropWhile_filename he, trim_of_forall he.solid]

theorem parseLine_gnuLine (he : Listed e) {marker : Char} (hmarker : marker = ' ' ∨ marker = '*') :
  parseLine (gnuLine marker e) = some e := by
 have hsplit := @splitOnce_append Char isAsciiWhitespace e.checksum (marker :: e.filename) ' '
  (fun c hc => (lowerHex_facts c (he.digits c hc)).2.2.1) (by decide)
 have halgorithm := ShasumAlgorithm.fromHexLen_eq_some.mpr he.length
 have hhex : ∀ c ∈ e.checksum, isHexDigit c = true := checksum_hex he.toRealDigest
 have hgnu : parseGnuLine (gnuLine marker e) = some e := by
  simpa [parseGnuLine, gnuLine, hsplit, filename_of_marker he hmarker, he.name, halgorithm,
   trim_of_forall (checksum_blank he.toRealDigest), checksum_toLower he.toRealDigest] using hhex
 rw [parseLine, parseBsdLine_gnuLine he.toRealDigest, hgnu, none_or, some_or]

theorem parseLine_bsdLine (he : Listed e) : parseLine (bsdLine e) = some e := by
 have htext : BsdText e.algorithm e.filename e.checksum (bsdLine e) := by
  refine ⟨checksum_hex he.toRealDigest, e.algorithm.tag, [], [' '], [' '], [], ?_, by simp [isWhitespace], by simp [bsdLine]⟩
  cases e.algorithm <;> decide
 rw [parseLine, parseBsdLine_of_text htext, some_or, trim_of_forall he.solid, checksum_toLower he.toRealDigest]

structure PlainLine (line : List Char) : Prop where
 unbroken : '\n' ∉ line
 trimmed : trim isWhitespace line = line
 first : ∃ c, line.head? = some c ∧ c ≠ '#'

theorem contentLines_cons (hline : PlainLine line) (rest : List Char) :
  contentLines (line ++ '\n' :: rest) = line :: contentLines rest := by
 obtain ⟨c, hc, hne⟩ := hline.first
 have hsplit : (line ++ '\n' :: rest).splitOn '\n' = line :: rest.splitOn '\n' := by
  rw [splitOn_eq_splitOnP, splitOn_eq_splitOnP]
  refine splitOnP_append_cons_of_forall_mem (fun c hc => ?_) '\n' (by simp) rest
  simpa using ne_of_mem_of_not_mem hc hline.unbroken
 rw [contentLines, hsplit, map_cons, hline.trimmed, filter_cons, if_pos]
 · rfl
 · cases line <;> simp_all

theorem parseShasumFile_render {line : ShasumEntry → List Char} {entries : List ShasumEntry}
  (hline : ∀ e ∈ entries, PlainLine (line e) ∧ parseLine (line e) = some e) :
  parseShasumFile (render line entries) = entries := by
 induction entries with
 | nil => rfl
 | cons e entries ih =>
  rw [forall_mem_cons] at hline
  have hrender : render line (e :: entries) = line e ++ '\n' :: render line entries := by simp [render]
  rw [hrender, parseShasumFile, contentLines_cons hline.1.1, filterMap_cons_some hline.1.2]
  exact congrArg (e :: ·) (ih hline.2)

theorem name_unbroken (he : Listed e) : '\n' ∉ e.filename := fun h => absurd (he.solid _ h) (by decide)

theorem checksum_unbroken (he : RealDigest e) : '\n' ∉ e.checksum :=
 fun h => (lowerHex_facts _ (he.digits _ h)).2.2.2.2.2.2.1 rfl

theorem plainLine_gnuLine (he : Listed e) {marker : Char} (hmarker : marker = ' ' ∨ marker = '*') :
  PlainLine (gnuLine marker e) := by
 obtain ⟨c, digits, hc⟩ := exists_cons_of_ne_nil (checksum_ne_nil he.toRealDigest)
 have hmem : c ∈ e.checksum := hc ▸ mem_cons_self
 refine ⟨?_, ?_, c, by simp [gnuLine, hc], (lowerHex_facts c (he.digits c hmem)).2.2.2.2.1⟩
 · have hbreak : '\n' ≠ marker := by rcases hmarker with rfl | rfl <;> decide
   simp [gnuLine, checksum_unbroken he.toRealDigest, name_unbroken he, hbreak]
 · have htrim := @trim_append Char isWhitespace (digits ++ [' ', marker]) e.filename c
    (checksum_blank he.toRealDigest c hmem) he.solid he.name
   simpa [gnuLine, hc] using htrim

theorem plainLine_bsdLine (he : Listed e) : PlainLine (bsdLine e) := by
 have hchecksum := checksum_blank he.toRealDigest
 have hne := checksum_ne_nil he.toRealDigest
 have htag : ∃ tag, e.algorithm.tag = 'S' :: tag ∧ '\n' ∉ tag := by
  cases e.algorithm
  all_goals exact ⟨_, rfl, by decide⟩
 obtain ⟨tag, htag, hbreak⟩ := htag
 refine ⟨?_, ?_, 'S', by simp [bsdLine, htag], by decide⟩
 · simp [bsdLine, htag, hbreak, checksum_unbroken he.toRealDigest, name_unbroken he]
 · have htrim := @trim_append Char isWhitespace (tag ++ ' ' :: '(' :: (e.filename ++ [')', ' ', '=', ' '])) e.checksum
    'S' (by decide) hchecksum hne
   simpa [bsdLine, htag] using htrim

/-- Every entry is a real digest if and only if every BSD line has as many digits as its tag says, and a list of digests
is read back from both formats. -/
theorem parseShasumFile_iff (content : List Char) :
  ((∀ e ∈ parseShasumFile content, RealDigest e) ↔ ∀ line ∈ contentLines content, ∀ a name digits,
   BsdText a name digits line → digits.length = a.hexLen) ∧
   ∀ entries, (∀ e ∈ entries, Listed e) →
    (∀ marker, marker = ' ' ∨ marker = '*' → parseShasumFile (render (gnuLine marker) entries) = entries) ∧
     parseShasumFile (render bsdLine entries) = entries := by
 refine ⟨parseShasumFile_real_iff, fun entries h => ⟨fun marker hmarker => ?_, ?_⟩⟩
 · exact parseShasumFile_render fun e he => ⟨plainLine_gnuLine (h e he) hmarker, parseLine_gnuLine (h e he) hmarker⟩
 · exact parseShasumFile_render fun e he => ⟨plainLine_bsdLine (h e he), parseLine_bsdLine (h e he)⟩

/-- A BSD line may give any number of digits, even none. -/
theorem parseShasumFile_short : ∃ content e, content = "SHA256 (disk.img) = ab\nSHA512 (disk.img) =\n".toList ∧
  e ∈ parseShasumFile content ∧ e = ⟨.sha256, "ab".toList, "disk.img".toList⟩ ∧ ¬RealDigest e ∧
  ⟨.sha512, [], "disk.img".toList⟩ ∈ parseShasumFile content :=
 ⟨_, _, rfl, by decide +kernel, rfl, fun h => absurd h.length (by decide), by decide +kernel⟩

end Shasum

end Lnvps
