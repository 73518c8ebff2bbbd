import Lnvps.Shasum

/-! # Self-upgrade -/

namespace Lnvps.Firewall.SelfUpgrade

open Text Option

abbrev Txt := List Char

abbrev Version := Nat × Nat × Nat

def parseU64 (x : Txt) : Option Nat :=
 let n := x.foldl (fun acc c => acc * 10 + (c.toNat - '0'.toNat)) 0
 if !x.isEmpty && x.all Char.isDigit && n < 2 ^ 64 then some n else none

def bare (v : Txt) : Txt := (trim Shasum.isWhitespace v).dropWhile (· = 'v')

def parse (v : Txt) : Option Version :=
 match ((bare v).splitOn '.').map fun x => parseU64 (x.takeWhile fun c => c ≠ '-' ∧ c ≠ '+') with
 | some a :: some b :: some c :: _ => some (a, b, c)
 | _ => none

def later (l c : Version) : Bool :=
 c.1 < l.1 ∨ c.1 = l.1 ∧ (c.2.1 < l.2.1 ∨ c.2.1 = l.2.1 ∧ c.2.2 < l.2.2)

def isNewer (latest current : Txt) : Bool :=
 match parse latest, parse current with
 | some l, some c => later l c
 | _, _ => bare latest ≠ trim Shasum.isWhitespace current

structure GhAsset where
 (name browserDownloadUrl : Txt)
 digest : Option Txt := none

structure GhRelease where
 tagName : Txt
 assets : List GhAsset := []

structure DebAsset where
 url : Txt
 (sha256 sigUrl : Option Txt)

def GhRelease.deb (rel : GhRelease) : Option DebAsset :=
 let sigUrl := (rel.assets.find? fun a => ".deb.minisig".toList.isSuffixOf a.name).map (·.browserDownloadUrl)
 (rel.assets.find? fun a => ".deb".toList.isSuffixOf a.name).map fun a =>
  { url := a.browserDownloadUrl
    sha256 := (a.digest.bind (·.dropPrefix? "sha256:".toList)).map fun d => d.map Char.toLower
    sigUrl := sigUrl }

structure UpgradeStatus where
 current : Txt := []
 latest : Option Txt := none
 available : Bool := false
 (debUrl debSha256 debSigUrl error : Option Txt := none)

variable (current : Txt)

def check : Except Txt GhRelease → UpgradeStatus
 | .ok rel =>
  { current := current
    latest := some rel.tagName
    available := rel.deb.isSome && isNewer rel.tagName current
    debUrl := rel.deb.map (·.url)
    debSha256 := rel.deb.bind (·.sha256)
    debSigUrl := rel.deb.bind (·.sigUrl) }
 | .error e => { current := current, error := some e }

def polled (answers : List (Except Txt GhRelease)) : UpgradeStatus :=
 answers.foldl (fun _ answer => check current answer) {}

structure Install where
 url : Txt
 (sha256 sigUrl pubkey : Option Txt)

def postUpgrade (allowRemoteUpgrade : Bool) (pubkey : Option Txt) (u : UpgradeStatus) : Except (Nat × String) Install :=
 if !allowRemoteUpgrade then .error (403, "remote upgrade disabled (set api.allow-remote-upgrade)")
 else
  match u.debUrl with
  | none => .error (400, "no upgrade available")
  | some url => .ok ⟨url, u.debSha256, u.debSigUrl, pubkey⟩

theorem polled_eq (answers : List (Except Txt GhRelease)) :
  polled current answers = (answers.getLast?.map (check current)).getD {} := by
 induction answers using List.reverseRecOn with
 | nil => rfl
 | append_singleton answers answer _ => simp [polled]

theorem postUpgrade_polled_iff {current : Txt} {answers : List (Except Txt GhRelease)} {allow : Bool} {pubkey : Option Txt}
  {i : Install} : postUpgrade allow pubkey (polled current answers) = .ok i ↔ allow = true ∧ ∃ rel deb,
   answers.getLast? = some (.ok rel) ∧ rel.deb = some deb ∧ i = ⟨deb.url, deb.sha256, deb.sigUrl, pubkey⟩ := by
 rw [polled_eq]
 rcases allow with _ | _
 · simp [postUpgrade]
 rcases answers.getLast? with _ | _ | rel
 · simp [postUpgrade]
 · simp [postUpgrade, check]
 · rcases hdeb : rel.deb with _ | deb
   · simp [postUpgrade, check, hdeb]
   · simp [postUpgrade, check, hdeb, eq_comm]

theorem isSome_deb_iff {rel : GhRelease} : rel.deb.isSome = true ↔ ∃ a ∈ rel.assets, ".deb".toList <:+ a.name := by
 simp only [GhRelease.deb, isSome_map, List.find?_isSome, List.isSuffixOf_iff_suffix]

def Version.order (v : Version) : Nat ×ₗ Nat ×ₗ Nat := toLex (v.1, toLex v.2)

theorem later_iff {l c : Version} : later l c = true ↔ c.order < l.order := by
 simp [later, Version.order, Prod.Lex.toLex_lt_toLex]

@[mk_iff] structure NewerTag (tag current : Txt) : Prop where
 numbers : ∀ l ∈ parse tag, ∀ c ∈ parse current, c.order < l.order
 text : parse tag = none ∨ parse current = none → bare tag ≠ trim Shasum.isWhitespace current

theorem isNewer_iff {tag current : Txt} : isNewer tag current = true ↔ NewerTag tag current := by
 unfold isNewer
 rcases hl : parse tag with _ | l <;> rcases hc : parse current with _ | c <;>
  simp [newerTag_iff, hl, hc, later_iff]

structure OrderLaws (V : Set Txt) : Prop where
 irrefl : ∀ a ∈ V, isNewer a a = false
 asymm : ∀ a ∈ V, ∀ b ∈ V, isNewer a b = true → isNewer b a = false
 trans : ∀ a ∈ V, ∀ b ∈ V, ∀ c ∈ V, isNewer a b = true → isNewer b c = true → isNewer a c = true

variable {a b : Txt} {V : Set Txt}

theorem parse_congr (h : bare a = bare b) : parse a = parse b := by rw [parse, parse, h]

theorem isNewer_of_parse_eq_none (h : parse a = none ∨ parse b = none) :
  isNewer a b = decide (bare a ≠ trim Shasum.isWhitespace b) := by
 unfold isNewer
 rcases h with h | h
 · rw [h]
 · rw [h]
   split <;> simp_all

theorem bare_eq_trim_iff : bare a = trim Shasum.isWhitespace a ↔ (trim Shasum.isWhitespace a).head? ≠ some 'v' := by
 unfold bare
 rcases trim Shasum.isWhitespace a with _ | ⟨c, t⟩
 · simp
 by_cases hc : c = 'v'
 · have hle := (List.dropWhile_suffix (· = 'v') (l := t)).length_le
   simp only [hc, List.dropWhile_cons, decide_true, if_true, List.head?_cons, ne_eq, not_true, iff_false]
   intro h
   have := congrArg List.length h
   simp at this
   omega
 · simp [hc]

theorem orderLaws_iff : OrderLaws V ↔ (∀ a ∈ V, (parse a).isSome = true) ∨
  ∃ t : Txt, t.head? ≠ some 'v' ∧ ∀ a ∈ V, trim Shasum.isWhitespace a = t := by
 constructor
 · intro h
   by_contra hno
   rw [not_or] at hno
   push Not at hno
   obtain ⟨⟨b, hb, hparse⟩, hother⟩ := hno
   have hnone : parse b = none := by simpa using hparse
   have hself : ∀ a ∈ V, parse a = none → bare a = trim Shasum.isWhitespace a := by
    intro a ha hparse
    simpa [isNewer_of_parse_eq_none (.inl hparse)] using h.irrefl a ha
   obtain ⟨a, ha, hne⟩ := hother _ (bare_eq_trim_iff.mp (hself b hb hnone))
   apply hne
   rw [← hself b hb hnone]
   by_cases hab : isNewer a b = true
   · have hba := h.asymm a ha b hb hab
     rw [isNewer_of_parse_eq_none (.inl hnone)] at hba
     exact (not_not.mp (of_decide_eq_false hba)).symm
   · rw [isNewer_of_parse_eq_none (.inr hnone)] at hab
     have hbare : bare a = bare b := by simpa [hself b hb hnone] using hab
     rw [← hself a ha ((parse_congr hbare).trans hnone), hbare]
 · rintro (h | ⟨t, hv, ht⟩)
   · have horder : ∀ a ∈ V, ∃ l, parse a = some l := fun a ha => isSome_iff_exists.mp (h a ha)
     have hiff : ∀ {a b l m}, parse a = some l → parse b = some m → (isNewer a b = true ↔ m.order < l.order) := by
      intro a b l m hl hm
      simp [isNewer, hl, hm, later_iff]
     refine ⟨fun a ha => ?_, fun a ha b hb hab => ?_, fun a ha b hb c hc hab hbc => ?_⟩
     · obtain ⟨l, hl⟩ := horder a ha
       simp [← Bool.not_eq_true, hiff hl hl]
     · obtain ⟨l, hl⟩ := horder a ha
       obtain ⟨m, hm⟩ := horder b hb
       rw [← Bool.not_eq_true, hiff hm hl]
       exact lt_asymm ((hiff hl hm).mp hab)
     · obtain ⟨l, hl⟩ := horder a ha
       obtain ⟨m, hm⟩ := horder b hb
       obtain ⟨n, hn⟩ := horder c hc
       exact (hiff hl hn).mpr (((hiff hm hn).mp hbc).trans ((hiff hl hm).mp hab))
   · have hnot : ∀ a ∈ V, ∀ b ∈ V, isNewer a b = false := by
      intro a ha b hb
      have hbare : ∀ a ∈ V, bare a = t := fun a ha => by rw [bare_eq_trim_iff.mpr (by rwa [ht a ha]), ht a ha]
      have hparse := parse_congr ((hbare a ha).trans (hbare b hb).symm)
      rw [← Bool.not_eq_true, isNewer_iff]
      rintro ⟨hnumbers, htext⟩
      rcases hb' : parse b with _ | m
      · exact htext (.inr hb') (by rw [hbare a ha, ht b hb])
      · exact lt_irrefl _ (hnumbers m (hparse.trans hb') m hb')
     exact ⟨fun a ha => hnot a ha a ha, fun a ha b hb _ => hnot b hb a ha,
      fun a ha b hb c hc hab => by rw [hnot a ha b hb] at hab; cases hab⟩

theorem upgrade_newer_iff (current : Txt) (answers : List (Except Txt GhRelease)) (allow : Bool) (pubkey : Option Txt) :
  ((∀ i, postUpgrade allow pubkey (polled current answers) = .ok i → ∃ rel deb, answers.getLast? = some (.ok rel) ∧
   rel.deb = some deb ∧ i = ⟨deb.url, deb.sha256, deb.sigUrl, pubkey⟩ ∧ isNewer rel.tagName current = true) ↔
   (allow = true → ∀ rel, answers.getLast? = some (.ok rel) → (∃ a ∈ rel.assets, ".deb".toList <:+ a.name) →
    NewerTag rel.tagName current)) ∧
  ∀ V, OrderLaws V ↔ (∀ a ∈ V, (parse a).isSome = true) ∨
   ∃ t : Txt, t.head? ≠ some 'v' ∧ ∀ a ∈ V, trim Shasum.isWhitespace a = t := by
 refine ⟨⟨fun h hallow rel hlast hdeb => ?_, fun h i hi => ?_⟩, fun V => orderLaws_iff⟩
 · obtain ⟨deb, hdeb⟩ := isSome_iff_exists.mp (isSome_deb_iff.mpr hdeb)
   obtain ⟨rel', _, hlast', _, _, hnewer⟩ := h _ (postUpgrade_polled_iff.mpr ⟨hallow, rel, deb, hlast, hdeb, rfl⟩)
   cases hlast.symm.trans hlast'
   exact isNewer_iff.mp hnewer
 · obtain ⟨hallow, rel, deb, hlast, hdeb, rfl⟩ := postUpgrade_polled_iff.mp hi
   exact ⟨rel, deb, hlast, hdeb, rfl, isNewer_iff.mpr (h hallow rel hlast (isSome_deb_iff.mp (by simp [hdeb])))⟩

/-- Release 0.4.6 is installed over 0.4.7. And a version that does not parse is newer than itself, or newer than one
that is newer than it. -/
theorem installs_older : ∃ (rel : GhRelease) (i : Install),
  postUpgrade true none (polled "0.4.7".toList [.ok rel]) = .ok i ∧ isNewer rel.tagName "0.4.7".toList = false ∧
  isNewer "vnext".toList "vnext".toList = true ∧
  isNewer "next".toList "beta".toList = true ∧ isNewer "beta".toList "next".toList = true ∧
  isNewer "next".toList "next".toList = false :=
 ⟨⟨"v0.4.6".toList, [⟨"lnvps-fw.deb".toList, "u".toList, none⟩]⟩, ⟨"u".toList, none, none, none⟩, rfl,
  by decide +kernel, by decide +kernel, by decide +kernel, by decide +kernel, by decide +kernel⟩

end Lnvps.Firewall.SelfUpgrade
