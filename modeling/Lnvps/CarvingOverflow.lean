import Lnvps.Carving

/-! # Carving, with overflows -/

namespace Lnvps.Carving

open Net Loop List

inductive Overflow
 | overflow
 deriving DecidableEq

def add (a b : Nat) : Except Overflow Nat := if a + b < 2 ^ 128 then .ok (a + b) else .error .overflow

def sub (a b : Nat) : Except Overflow Nat := if b ≤ a then .ok (a - b) else .error .overflow

def shiftLeft (bits : Nat) : Except Overflow Nat := if bits < 128 then .ok (2 ^ bits) else .error .overflow

def netBoundsChecked (n : Network) : Except Overflow (Nat × Nat) :=
 match n.ip.kind with
 | .v4 => do
  let base := n.first
  let size ← shiftLeft (32 - n.prefixLen)
  let last ← sub (← add base size) 1
  .ok (base, last)
 | .v6 =>
  let base := n.first
  let hostBits := 128 - n.prefixLen
  if 128 ≤ hostBits then .ok (0, 2 ^ 128 - 1)
  else do
   let last ← sub (← add base (← shiftLeft hostBits)) 1
   .ok (base, last)

def jump (size te cur : Nat) : Except Overflow Nat := do
 let after := te + 1
 let sum ← sub (← add after size) 1
 let _ ← sub size 1
 let aligned := sum / size * size
 if aligned ≤ cur then add cur size else .ok aligned

def passChecked (size blockEnd : Nat) (takenBounds : List (Nat × Nat)) (cur : Nat) :
  Pass Nat (Except Overflow (Option Nat)) :=
 if blockEnd < cur then .leave (.ok none)
 else
  match sub size 1 with
  | .error e => .leave (.error e)
  | .ok less =>
   if 2 ^ 128 ≤ cur + less then .leave (.ok none)
   else if blockEnd < cur + less then .leave (.ok none)
   else
    match takenBounds.find? (boundsOverlap (cur, cur + less)) with
    | none => .leave (.ok (some cur))
    | some (_, te) =>
     if 2 ^ 128 ≤ te + 1 then .leave (.ok none)
     else
      match jump size te cur with
      | .error e => .leave (.error e)
      | .ok next => .again next

def setup (block : Network) (targetLen : Nat) (taken : List Network) :
  Except Overflow (Nat × (Nat × Nat) × List (Nat × Nat)) := do
 let size ← shiftLeft (block.ip.kind.bits - targetLen)
 let blockBounds ← netBoundsChecked block
 let takenBounds ← (taken.filter fun t => t.ip.kind = block.ip.kind).mapM netBoundsChecked
 .ok (size, blockBounds, takenBounds.insertionSort fun b b' => b.1 < b'.1 ∨ (b.1 = b'.1 ∧ b.2 ≤ b'.2))

def allocateChecked (rounds : Nat) (block : Network) (targetLen : Nat) (taken : List Network) :
  Option (Except Overflow (Option Network)) :=
 let maxBits := block.ip.kind.bits
 if targetLen < block.prefixLen ∨ maxBits < targetLen then some (.ok none)
 else if 128 ≤ maxBits - targetLen then some (.ok none)
 else
  match setup block targetLen taken with
  | .error e => some (.error e)
  | .ok (size, (blockStart, blockEnd), takenBounds) =>
   (run (passChecked size blockEnd takenBounds) rounds blockStart).map fun result =>
    result.map fun found => found.bind fun start => makeNet start targetLen block.ip.kind

def endsAtTop (n : Network) : Bool := n.ip.kind = .v6 ∧ n.prefixLen ≠ 0 ∧ n.last + 1 = 2 ^ 128

variable {a b : Nat}

theorem add_of_lt (h : a + b < 2 ^ 128) : add a b = .ok (a + b) := if_pos h

theorem add_of_le (h : 2 ^ 128 ≤ a + b) : add a b = .error .overflow := if_neg (Nat.not_lt.mpr h)

theorem sub_of_le (h : b ≤ a) : sub a b = .ok (a - b) := if_pos h

theorem shiftLeft_of_lt {bits : Nat} (h : bits < 128) : shiftLeft bits = .ok (2 ^ bits) := if_pos h

variable {block n : Network} {targetLen : Nat} {taken : List Network}

theorem last_of_sum (n : Network) :
  (do let last ← sub (← add n.first n.size) 1; .ok (n.first, last)) =
   if n.last + 1 < 2 ^ 128 then (.ok (netBounds n) : Except Overflow (Nat × Nat)) else .error .overflow := by
 have hpos := n.size_pos
 have hlast := first_add n
 by_cases hlt : n.last + 1 < 2 ^ 128
 · have hsub : n.first + n.size - 1 = n.last := by omega
   rw [if_pos hlt, add_of_lt (by omega)]
   simp only [bind, Except.bind, sub_of_le (show 1 ≤ n.first + n.size by omega), hsub, netBounds]
 · rw [if_neg hlt, add_of_le (by omega)]
   rfl

theorem netBoundsChecked_eq (n : Network) :
  netBoundsChecked n = if endsAtTop n then .error .overflow else .ok (netBounds n) := by
 have hpos := n.size_pos
 have hlast := first_add n
 have htop := n.first_add_size_le
 have hsum := last_of_sum n
 unfold netBoundsChecked endsAtTop
 cases hkind : n.ip.kind with
 | v4 =>
  have hsize : n.size = 2 ^ (32 - n.prefixLen) := by
   rw [Network.size, hkind]
   rfl
  have hbits : 2 ^ n.ip.kind.bits < 2 ^ 128 := by
   rw [hkind]
   decide
  rw [if_pos (by omega)] at hsum
  simp only [reduceCtorEq, false_and, decide_false, Bool.false_eq_true, if_false]
  rw [shiftLeft_of_lt (show 32 - n.prefixLen < 128 by omega), ← hsize]
  exact hsum
 | v6 =>
  have hbits : 2 ^ n.ip.kind.bits = 2 ^ 128 := by
   rw [hkind]
   rfl
  have hle : n.prefixLen ≤ 128 := by
   have hle := n.le
   rwa [hkind] at hle
  have hsize : n.size = 2 ^ (128 - n.prefixLen) := by
   rw [Network.size, hkind]
   rfl
  by_cases hzero : n.prefixLen = 0
  · rw [hzero] at hsize
    have hbounds : netBounds n = (0, 2 ^ 128 - 1) := by
     rw [netBounds, Prod.mk.injEq]
     omega
    simp [hzero, hbounds]
  · rw [if_neg (show ¬ 128 ≤ 128 - n.prefixLen by omega), shiftLeft_of_lt (show 128 - n.prefixLen < 128 by omega),
     ← hsize]
    refine hsum.trans ?_
    by_cases hend : n.last + 1 = 2 ^ 128
    · rw [if_neg (by omega), if_pos (by simp [hzero, hend])]
    · rw [if_pos (by omega), if_neg (by rw [decide_eq_true_eq]; exact fun h => hend h.2.2)]

theorem mapM_netBoundsChecked (ts : List Network) :
  ts.mapM netBoundsChecked = if ts.any endsAtTop then .error .overflow else .ok (ts.map netBounds) := by
 induction ts with
 | nil => rfl
 | cons t ts ih =>
  rw [mapM_cons, ih, netBoundsChecked_eq, any_cons]
  cases endsAtTop t with
  | true => rfl
  | false =>
   rw [Bool.false_or, if_neg Bool.false_ne_true]
   cases ts.any endsAtTop <;> rfl

theorem setup_eq (hsize : block.ip.kind.bits - targetLen < 128) :
  setup block targetLen taken =
   if endsAtTop block || (taken.filter fun t => t.ip.kind = block.ip.kind).any endsAtTop then .error .overflow
   else .ok (2 ^ (block.ip.kind.bits - targetLen), (block.first, block.last), boundsOf block.ip.kind taken) := by
 unfold setup
 rw [shiftLeft_of_lt hsize, netBoundsChecked_eq, mapM_netBoundsChecked]
 cases endsAtTop block with
 | true => rfl
 | false =>
  cases (taken.filter fun t => t.ip.kind = block.ip.kind).any endsAtTop <;> rfl

section Walk

variable {size blockStart blockEnd cur c : Nat} {bounds : List (Nat × Nat)} {b : Nat × Nat}

abbrev Before (b b' : Nat × Nat) : Prop := b.1 < b'.1 ∨ (b.1 = b'.1 ∧ b.2 ≤ b'.2)

structure InTheWay (size blockStart blockEnd : Nat) (bounds : List (Nat × Nat)) (c : Nat) (b : Nat × Nat) : Prop where
 aligned : size ∣ c
 start : blockStart ≤ c
 last : c + (size - 1) ≤ blockEnd
 below : ∀ c' < c, ¬Slot size blockStart blockEnd bounds c'
 mem : b ∈ bounds
 meets : c ≤ b.2 ∧ b.1 ≤ c + (size - 1)
 first : ∀ b' ∈ bounds, c ≤ b'.2 → b'.1 ≤ c + (size - 1) → Before b b'

theorem pairwise_boundsOf (kind : Kind) (taken : List Network) : (boundsOf kind taken).Pairwise Before := by
 have : Std.Total Before := ⟨fun b b' => by omega⟩
 have : IsTrans _ Before := ⟨fun b b' b'' h h' => by omega⟩
 exact pairwise_insertionSort Before _

theorem met_eq_some_iff (hsorted : bounds.Pairwise Before) (hin : c + (size - 1) ≤ blockEnd) :
  met size blockEnd bounds c = some b ↔ b ∈ bounds ∧ (c ≤ b.2 ∧ b.1 ≤ c + (size - 1)) ∧
   ∀ b' ∈ bounds, c ≤ b'.2 → b'.1 ≤ c + (size - 1) → Before b b' := by
 rw [met, if_pos hin]
 have hfirst {b : Nat × Nat} (h : bounds.find? (boundsOverlap (c, c + (size - 1))) = some b) :
   ∀ b' ∈ bounds, c ≤ b'.2 → b'.1 ≤ c + (size - 1) → Before b b' := by
  obtain ⟨-, as, bs, rfl, has⟩ := List.find?_eq_some_iff_append.mp h
  intro b' hb' hle hle'
  rw [pairwise_append, pairwise_cons] at hsorted
  rcases mem_append.mp hb' with hb' | hb'
  · have hout : boundsOverlap (c, c + (size - 1)) b' = false := by simpa using has b' hb'
    exact absurd ⟨hle, hle'⟩ (of_decide_eq_false hout)
  · rcases mem_cons.mp hb' with rfl | hb'
    · exact .inr ⟨rfl, le_refl _⟩
    · exact hsorted.2.1.1 b' hb'
 constructor
 · intro h
   have hover := List.find?_some h
   simp only [boundsOverlap, decide_eq_true_eq] at hover
   exact ⟨mem_of_find?_eq_some h, hover, hfirst h⟩
 rintro ⟨hmem, hmeets, hleast⟩
 cases hfind : bounds.find? (boundsOverlap (c, c + (size - 1))) with
 | none => exact absurd (decide_eq_true hmeets) (List.find?_eq_none.mp hfind b hmem)
 | some b' =>
  have hover := List.find?_some hfind
  simp only [boundsOverlap, decide_eq_true_eq] at hover
  have h1 := hfirst hfind b hmem hmeets.1 hmeets.2
  have h2 := hleast b' (mem_of_find?_eq_some hfind) hover.1 hover.2
  exact congrArg some (Prod.ext (by omega) (by omega))

theorem inTheWay_of_met (hsorted : bounds.Pairwise Before) (hahead : Ahead size blockStart blockEnd bounds cur)
  (hmet : met size blockEnd bounds cur = some b) : InTheWay size blockStart blockEnd bounds cur b := by
 have hin : cur + (size - 1) ≤ blockEnd := by
  by_contra hout
  simp [met, hout] at hmet
 obtain ⟨hmem, hmeets, hfirst⟩ := (met_eq_some_iff hsorted hin).mp hmet
 exact ⟨hahead.aligned, hahead.start, hin, fun c hc hslot => by have := hahead.le c hslot; omega, hmem, hmeets, hfirst⟩

theorem reaches_of_inTheWay (hsorted : bounds.Pairwise Before) (hpos : 0 < size) (hend : blockEnd < 2 ^ 128)
  (h : InTheWay size blockStart blockEnd bounds c b) (hahead : Ahead size blockStart blockEnd bounds cur)
  (hle : cur ≤ c) : ∃ cur', Reaches (pass size blockEnd bounds) cur cur' ∧ met size blockEnd bounds cur' = some b := by
 induction hn : c - cur using Nat.strong_induction_on generalizing cur with
 | _ n ih =>
  have hlast := h.last
  have hmeets := h.meets
  have hin : cur + (size - 1) ≤ blockEnd := by omega
  rcases Nat.lt_or_eq_of_le hle with hlt | rfl
  · obtain ⟨b', hmet⟩ : ∃ b', met size blockEnd bounds cur = some b' := by
     by_contra hnone
     refine h.below cur hlt ⟨hahead.aligned, hahead.start, hin, fun b' hb' => ?_⟩
     rw [met, if_pos hin] at hnone
     simpa using List.find?_eq_none.mp (Option.eq_none_iff_forall_ne_some.mpr fun b' hb' => hnone ⟨b', hb'⟩) b' hb'
    obtain ⟨hmem, hmeets', hfirst⟩ := (met_eq_some_iff hsorted hin).mp hmet
    by_cases hover : c ≤ b'.2
    · have h1 := h.first b' hmem hover (by omega)
      have h2 := hfirst b h.mem (by omega) (by omega)
      obtain rfl : b = b' := Prod.ext (by omega) (by omega)
      exact ⟨cur, .refl, hmet⟩
    · have hpass : pass size blockEnd bounds cur = .again ((b'.2 + 1 + size - 1) / size * size) := by
       have hup := lt_roundUp hpos b'.2
       rw [met, if_pos hin] at hmet
       rw [pass, if_neg (by omega), if_neg (by omega), if_neg (by omega), hmet]
       simp only [if_neg (show ¬2 ^ 128 ≤ b'.2 + 1 by omega),
        if_neg (show ¬(b'.2 + 1 + size - 1) / size * size ≤ cur by omega)]
      have hnext := roundUp_le hpos h.aligned (Nat.lt_of_not_le hover)
      have hup := lt_roundUp hpos b'.2
      obtain ⟨cur', hreach, hfound⟩ := ih (c - (b'.2 + 1 + size - 1) / size * size) (by omega)
       (hahead.again hpos hpass).1 hnext rfl
      exact ⟨cur', .head hpass hreach, hfound⟩
  · exact ⟨cur, .refl, (met_eq_some_iff hsorted hin).mpr ⟨h.mem, h.meets, h.first⟩⟩

def overflowAt (size blockEnd : Nat) (bounds : List (Nat × Nat)) (cur : Nat) : Option Overflow :=
 if (met size blockEnd bounds cur).any fun b => b.2 + 1 < 2 ^ 128 ∧ 2 ^ 128 ≤ b.2 + 1 + size then some .overflow
 else none

theorem jump_of_le {te : Nat} (h : 2 ^ 128 ≤ te + 1 + size) : jump size te cur = .error .overflow := by
 unfold jump
 dsimp only
 rw [add_of_le h]
 rfl

theorem jump_of_lt {te : Nat} (hpos : 0 < size) (hcur : cur ≤ te) (h : te + 1 + size < 2 ^ 128) :
  jump size te cur = .ok ((te + 1 + size - 1) / size * size) := by
 have hup := lt_roundUp hpos te
 unfold jump
 simp only [bind, Except.bind, add_of_lt h, sub_of_le (show 1 ≤ te + 1 + size by omega),
  sub_of_le (show 1 ≤ size by omega)]
 rw [if_neg (by omega)]

theorem passChecked_eq (bounds : List (Nat × Nat)) (hpos : 0 < size) (hend : blockEnd < 2 ^ 128) (cur : Nat) :
  passChecked size blockEnd bounds cur =
   guarded (pass size blockEnd bounds) (overflowAt size blockEnd bounds) cur := by
 unfold passChecked guarded overflowAt met pass
 rw [sub_of_le (show 1 ≤ size by omega)]
 by_cases hcur : blockEnd < cur
 · simp only [if_pos hcur, if_neg (show ¬ cur + (size - 1) ≤ blockEnd by omega)]
   rfl
 by_cases hwrap : 2 ^ 128 ≤ cur + (size - 1)
 · simp only [if_neg hcur, if_pos hwrap, if_neg (show ¬ cur + (size - 1) ≤ blockEnd by omega)]
   rfl
 by_cases hin : blockEnd < cur + (size - 1)
 · simp only [if_neg hcur, if_neg hwrap, if_pos hin, if_neg (show ¬ cur + (size - 1) ≤ blockEnd by omega)]
   rfl
 simp only [if_neg hcur, if_neg hwrap, if_neg hin, if_pos (Nat.le_of_not_lt hin)]
 cases hfind : bounds.find? (boundsOverlap (cur, cur + (size - 1))) with
 | none => rfl
 | some b =>
  obtain ⟨ts, te⟩ := b
  have hover := List.find?_some hfind
  simp only [boundsOverlap, decide_eq_true_eq] at hover
  have hup := lt_roundUp hpos te
  simp only [Option.any_some, decide_eq_true_eq]
  by_cases htop : 2 ^ 128 ≤ te + 1
  · simp only [if_pos htop, if_neg (show ¬ (te + 1 < 2 ^ 128 ∧ 2 ^ 128 ≤ te + 1 + size) by omega)]
  by_cases hsum : 2 ^ 128 ≤ te + 1 + size
  · simp only [if_neg htop, jump_of_le hsum, if_pos (show te + 1 < 2 ^ 128 ∧ 2 ^ 128 ≤ te + 1 + size by omega)]
  · simp only [if_neg htop, jump_of_lt hpos hover.1 (Nat.lt_of_not_le hsum),
     if_neg (show ¬ (te + 1 < 2 ^ 128 ∧ 2 ^ 128 ≤ te + 1 + size) by omega),
     if_neg (show ¬ (te + 1 + size - 1) / size * size ≤ cur by omega)]

end Walk

def BoundsFit (block : Network) (taken : List Network) : Prop :=
 ∀ n ∈ block :: taken, n.ip.kind = block.ip.kind → endsAtTop n = false

def JumpsFit (block : Network) (targetLen : Nat) (taken : List Network) : Prop :=
 ∀ c b, InTheWay (2 ^ (block.ip.kind.bits - targetLen)) block.first block.last (boundsOf block.ip.kind taken) c b →
  2 ^ 128 ≤ b.2 + 1 ∨ b.2 + 1 + 2 ^ (block.ip.kind.bits - targetLen) < 2 ^ 128

theorem boundsFit_iff :
  BoundsFit block taken ↔
   (endsAtTop block || (taken.filter fun t => t.ip.kind = block.ip.kind).any endsAtTop) = false := by
 rw [Bool.or_eq_false_iff, any_eq_false, BoundsFit, forall_mem_cons]
 simp [mem_filter]

theorem last_lt_pow (n : Network) : n.last < 2 ^ 128 := by
 have hbits : 2 ^ n.ip.kind.bits ≤ 2 ^ 128 := by cases n.ip.kind <;> decide
 exact Nat.lt_of_lt_of_le Network.last_lt hbits

theorem jumpsFit_iff (hlow : block.prefixLen ≤ targetLen) :
  JumpsFit block targetLen taken ↔
   ∀ cur, Reaches (pass (2 ^ (block.ip.kind.bits - targetLen)) block.last (boundsOf block.ip.kind taken)) block.first
     cur →
    overflowAt (2 ^ (block.ip.kind.bits - targetLen)) block.last (boundsOf block.ip.kind taken) cur = none := by
 have hsorted := pairwise_boundsOf block.ip.kind taken
 have hpos := Nat.two_pow_pos (block.ip.kind.bits - targetLen)
 have hdvd : 2 ^ (block.ip.kind.bits - targetLen) ∣ block.first :=
  (Nat.pow_dvd_pow 2 (by omega)).trans (Nat.dvd_mul_left block.size _)
 have hahead : Ahead (2 ^ (block.ip.kind.bits - targetLen)) block.first block.last (boundsOf block.ip.kind taken)
   block.first := ⟨hdvd, le_refl _, fun c hc => hc.start⟩
 constructor
 · intro h cur hreach
   unfold overflowAt
   cases hmet : met (2 ^ (block.ip.kind.bits - targetLen)) block.last (boundsOf block.ip.kind taken) cur with
   | none => rfl
   | some b =>
    have hfit := h cur b (inTheWay_of_met hsorted (hahead.reaches hpos hreach) hmet)
    simp only [Option.any_some, decide_eq_true_eq, ite_eq_right_iff, reduceCtorEq, imp_false]
    omega
 · intro h c b hway
   obtain ⟨cur, hreach, hmet⟩ := reaches_of_inTheWay hsorted hpos (last_lt_pow block) hway hahead hway.start
   have hfit := h cur hreach
   simp only [overflowAt, hmet, Option.any_some, decide_eq_true_eq, ite_eq_right_iff, reduceCtorEq, imp_false] at hfit
   omega

theorem run_passChecked (hbounds : BoundsFit block taken) (hlow : block.prefixLen ≤ targetLen)
  (hhigh : targetLen ≤ block.ip.kind.bits) (hsize : block.ip.kind.bits - targetLen < 128) (rounds : Nat) :
  allocateChecked rounds block targetLen taken =
   (run (guarded (pass (2 ^ (block.ip.kind.bits - targetLen)) block.last (boundsOf block.ip.kind taken))
    (overflowAt (2 ^ (block.ip.kind.bits - targetLen)) block.last (boundsOf block.ip.kind taken))) rounds
    block.first).map fun result =>
     result.map fun found => found.bind fun start => makeNet start targetLen block.ip.kind := by
 unfold allocateChecked
 rw [if_neg (by omega), if_neg (by omega), setup_eq hsize, boundsFit_iff.mp hbounds]
 have hpass := funext (passChecked_eq (boundsOf block.ip.kind taken)
  (Nat.two_pow_pos (block.ip.kind.bits - targetLen)) (last_lt_pow block))
 simp only [Bool.false_eq_true, if_false, hpass]

theorem allocateChecked_eq (hbounds : BoundsFit block taken) (hjumps : JumpsFit block targetLen taken)
  (hlow : block.prefixLen ≤ targetLen) (hhigh : targetLen ≤ block.ip.kind.bits)
  (hsize : block.ip.kind.bits - targetLen < 128) (rounds : Nat) :
  allocateChecked rounds block targetLen taken = (allocateSubnet rounds block targetLen taken).map .ok := by
 rw [run_passChecked hbounds hlow hhigh hsize, run_guarded ((jumpsFit_iff hlow).mp hjumps)]
 unfold allocateSubnet
 rw [if_neg (by omega), if_neg (by omega), Option.map_map, Option.map_map]
 rfl

theorem fit_of_v4 (hkind : block.ip.kind = .v4) (targetLen : Nat) :
  BoundsFit block taken ∧ JumpsFit block targetLen taken := by
 constructor
 · intro n _ hn
   simp [endsAtTop, hn, hkind]
 intro c b hway
 right
 obtain ⟨t, -, ht, rfl⟩ := mem_boundsOf.mp hway.mem
 have hlast : t.last < 2 ^ t.ip.kind.bits := Network.last_lt
 have hsize : 2 ^ (block.ip.kind.bits - targetLen) ≤ 2 ^ 32 := by
  rw [hkind]
  exact Nat.pow_le_pow_right (by decide) (Nat.sub_le _ _)
 rw [ht, hkind] at hlast
 simp only [Kind.bits] at hlast
 simp only [netBounds]
 omega

theorem carving_overflows_iff (block : Network) (targetLen : Nat) (taken : List Network) :
  ((∀ rounds, allocateChecked rounds block targetLen taken ≠ some (.error .overflow)) ↔
   (targetLen < block.prefixLen ∨ block.ip.kind.bits < targetLen ∨ 128 ≤ block.ip.kind.bits - targetLen) ∨
    (BoundsFit block taken ∧ JumpsFit block targetLen taken)) ∧
  (block.ip.kind = .v4 → BoundsFit block taken ∧ JumpsFit block targetLen taken) := by
 refine ⟨?_, fun hkind => fit_of_v4 hkind targetLen⟩
 by_cases hrefused : targetLen < block.prefixLen ∨ block.ip.kind.bits < targetLen ∨
   128 ≤ block.ip.kind.bits - targetLen
 · refine iff_of_true (fun rounds => ?_) (Or.inl hrefused)
   unfold allocateChecked
   by_cases hlen : targetLen < block.prefixLen ∨ block.ip.kind.bits < targetLen
   · rw [if_pos hlen]
     nofun
   · rw [if_neg hlen, if_pos (by omega)]
     nofun
 have hlow : block.prefixLen ≤ targetLen := by omega
 have hhigh : targetLen ≤ block.ip.kind.bits := by omega
 have hsize : block.ip.kind.bits - targetLen < 128 := by omega
 rw [or_iff_right hrefused]
 constructor
 · intro hnever
   have hbounds : BoundsFit block taken := by
    rw [boundsFit_iff, ← Bool.not_eq_true]
    intro htop
    apply hnever 0
    unfold allocateChecked
    rw [if_neg (by omega), if_neg (by omega), setup_eq hsize, htop]
    rfl
   refine ⟨hbounds, (jumpsFit_iff hlow).mpr fun cur hreach => ?_⟩
   by_contra hfail
   obtain ⟨rounds, e, hrun⟩ := run_guarded_error_iff.mpr ⟨cur, hreach, hfail⟩
   apply hnever rounds
   rw [run_passChecked hbounds hlow hhigh hsize, hrun]
   rfl
 · rintro ⟨hbounds, hjumps⟩ rounds
   rw [allocateChecked_eq hbounds hjumps hlow hhigh hsize]
   intro herror
   obtain ⟨found, -, hfound⟩ := Option.map_eq_some_iff.mp herror
   cases hfound

def topBlock : Network := ⟨⟨.v6, 0xffff * 2 ^ 112, by decide⟩, 16, by decide⟩

/-- The end of a block at the end of the addresses overflows; and in the block of all IPv6 addresses, of which the lower
half is taken, so does the sum behind it. -/
theorem carving_overflows :
  allocateChecked 1 topBlock 32 [] = some (.error .overflow) ∧
   allocateChecked 1 allV6 1 [⟨⟨.v6, 0, by decide⟩, 1, by decide⟩] = some (.error .overflow) := by
 decide +kernel

end Lnvps.Carving
