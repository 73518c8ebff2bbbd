import Lnvps.Lib.Lpm

/-! # The scope of the firewall -/

namespace Lnvps.Firewall

open Lpm List

inductive Dst
 | v4 (a : BitVec 32)
 | v6 (a : BitVec 128)
 deriving DecidableEq

structure ProtectedNets where
 v4 : List (Cidr 32)
 v6 : List (Cidr 128)

namespace ProtectedNets

def isEmpty (l : ProtectedNets) : Bool := l.v4.isEmpty && l.v6.isEmpty

def covers (l : ProtectedNets) : Dst → Bool
 | .v4 a => l.v4.any (·.covers a)
 | .v6 a => l.v6.any (·.covers a)

variable {l : ProtectedNets}

theorem isEmpty_iff : l.isEmpty = true ↔ l.v4 = [] ∧ l.v6 = [] := by
 simp [isEmpty]

theorem not_covers_of_isEmpty (h : l.isEmpty = true) (d : Dst) : l.covers d = false := by
 obtain ⟨h4, h6⟩ := isEmpty_iff.mp h
 cases d with
 | v4 a => simp [covers, h4]
 | v6 a => simp [covers, h6]

theorem exists_covers (h : l.isEmpty = false) : ∃ d, l.covers d = true := by
 by_cases h4 : l.v4 = []
 · have h6 : l.v6 ≠ [] := by
    intro h6
    rw [isEmpty_iff.mpr ⟨h4, h6⟩] at h
    cases h
   obtain ⟨c, hc⟩ := exists_mem_of_ne_nil _ h6
   exact ⟨.v6 c.net, any_eq_true.mpr ⟨c, hc, c.covers_net⟩⟩
 · obtain ⟨c, hc⟩ := exists_mem_of_ne_nil _ h4
   exact ⟨.v4 c.net, any_eq_true.mpr ⟨c, hc, c.covers_net⟩⟩

def overlaps (l l' : ProtectedNets) : Bool :=
 l.v4.any (fun c => l'.v4.any (fun c' => c.overlaps c')) || l.v6.any (fun c => l'.v6.any (fun c' => c.overlaps c'))

private theorem any_overlaps_iff {w : Nat} {l l' : List (Cidr w)} :
  l.any (fun c => l'.any (fun c' => c.overlaps c')) = true ↔
   ∃ a, l.any (·.covers a) = true ∧ l'.any (·.covers a) = true := by
 simp only [any_eq_true, Cidr.overlaps_iff]
 constructor
 · rintro ⟨c, hc, c', hc', a, ha, ha'⟩
   exact ⟨a, ⟨c, hc, ha⟩, ⟨c', hc', ha'⟩⟩
 · rintro ⟨a, ⟨c, hc, ha⟩, ⟨c', hc', ha'⟩⟩
   exact ⟨c, hc, c', hc', a, ha, ha'⟩

theorem overlaps_iff {l l' : ProtectedNets} : l.overlaps l' = true ↔ ∃ d, l.covers d = true ∧ l'.covers d = true := by
 rw [overlaps, Bool.or_eq_true, any_overlaps_iff, any_overlaps_iff]
 constructor
 · rintro (⟨a, ha⟩ | ⟨a, ha⟩)
   · exact ⟨.v4 a, ha⟩
   · exact ⟨.v6 a, ha⟩
 rintro ⟨d, hd⟩
 cases d with
 | v4 a => exact .inl ⟨a, hd⟩
 | v6 a => exact .inr ⟨a, hd⟩

end ProtectedNets

structure ScopeMaps where
 protectedV4 : Trie 32 Unit
 protectedV6 : Trie 128 Unit
 scopedFlag : Bool

inductive ScopeOp
 | removeV4 (c : Cidr 32)
 | insertV4 (c : Cidr 32)
 | removeV6 (c : Cidr 128)
 | insertV6 (c : Cidr 128)
 | setScoped (b : Bool)

namespace ScopeMaps

variable (m : ScopeMaps)

def apply : ScopeOp → ScopeMaps
 | .removeV4 c => { m with protectedV4 := m.protectedV4.erase c }
 | .insertV4 c => { m with protectedV4 := m.protectedV4.insert c () }
 | .removeV6 c => { m with protectedV6 := m.protectedV6.erase c }
 | .insertV6 c => { m with protectedV6 := m.protectedV6.insert c () }
 | .setScoped b => { m with scopedFlag := b }

def after (ops : List ScopeOp) : ScopeMaps := ops.foldl apply m

def outOfScope : Dst → Bool
 | .v4 a => m.scopedFlag && !(m.protectedV4.longest a).isSome
 | .v6 a => m.scopedFlag && !(m.protectedV6.longest a).isSome

variable (m : ScopeMaps)

theorem after_append (ops ops' : List ScopeOp) : m.after (ops ++ ops') = (m.after ops).after ops' :=
 foldl_append

theorem after_removeV4 (l : List (Cidr 32)) :
  m.after (l.map .removeV4) = { m with protectedV4 := m.protectedV4.eraseAll l } := by
 induction l generalizing m with
 | nil => rfl
 | cons c l ih => exact ih _

theorem after_removeV6 (l : List (Cidr 128)) :
  m.after (l.map .removeV6) = { m with protectedV6 := m.protectedV6.eraseAll l } := by
 induction l generalizing m with
 | nil => rfl
 | cons c l ih => exact ih _

theorem after_insertV4 (l : List (Cidr 32)) :
  m.after (l.map .insertV4) = { m with protectedV4 := m.protectedV4.writeAll (l.map (·, ())) } := by
 induction l generalizing m with
 | nil => rfl
 | cons c l ih => exact ih _

theorem after_insertV6 (l : List (Cidr 128)) :
  m.after (l.map .insertV6) = { m with protectedV6 := m.protectedV6.writeAll (l.map (·, ())) } := by
 induction l generalizing m with
 | nil => rfl
 | cons c l ih => exact ih _

theorem scopedFlag_after {ops : List ScopeOp} (h : ∀ op ∈ ops, ∀ b, op ≠ .setScoped b) :
  (m.after ops).scopedFlag = m.scopedFlag := by
 induction ops generalizing m with
 | nil => rfl
 | cons op ops ih =>
  have hrest := ih (m.apply op) (fun op' hop' => h op' (mem_cons_of_mem _ hop'))
  have hstep : m.after (op :: ops) = (m.apply op).after ops := rfl
  rw [hstep, hrest]
  cases op with
  | setScoped b => exact absurd rfl (h _ mem_cons_self b)
  | removeV4 c => rfl
  | insertV4 c => rfl
  | removeV6 c => rfl
  | insertV6 c => rfl

end ScopeMaps

def syncOps (applied new : ProtectedNets) : List ScopeOp :=
 applied.v4.map .removeV4 ++ (new.v4.map .insertV4 ++ (applied.v6.map .removeV6 ++
  (new.v6.map .insertV6 ++ [.setScoped (!new.isEmpty)])))

private theorem lookup_replaced {w : Nat} {t : Trie w Unit} {old : List (Cidr w)} (new : List (Cidr w))
  (ht : ∀ c, (t.lookup c).isSome = true ↔ c ∈ old) (c : Cidr w) :
  (((t.eraseAll old).writeAll (new.map (·, ()))).lookup c).isSome = true ↔ c ∈ new := by
 by_cases hc : c ∈ new
 · obtain ⟨v, -, hv⟩ : ∃ v, (c, v) ∈ new.map (·, ()) ∧
     ((t.eraseAll old).writeAll (new.map (·, ()))).lookup c = some v :=
    Trie.lookup_writeAll_of_mem (by simpa using hc)
   simp [hv, hc]
 rw [Trie.lookup_writeAll_of_notMem (by simpa using hc), Trie.lookup_eraseAll]
 by_cases ho : c ∈ old
 · simp [ho, hc]
 · simp [ho, hc, ht]

private theorem longest_drained {w : Nat} {t : Trie w Unit} {old : List (Cidr w)}
  (ht : ∀ c, (t.lookup c).isSome = true ↔ c ∈ old) (a : BitVec w) : (t.eraseAll old).longest a = none := by
 rw [Trie.longest_eq_none_iff]
 intro k _
 rw [Trie.lookup_eraseAll]
 by_cases hk : k ∈ old
 · simp [hk]
 · simpa [hk] using (ht k).not.mpr hk

structure Scope where
 maps : ScopeMaps
 applied : ProtectedNets
 mem_v4 : ∀ c, (maps.protectedV4.lookup c).isSome = true ↔ c ∈ applied.v4
 mem_v6 : ∀ c, (maps.protectedV6.lookup c).isSome = true ↔ c ∈ applied.v6
 scoped_eq : maps.scopedFlag = !applied.isEmpty

namespace Scope

def start : Scope where
 maps := ⟨∅, ∅, false⟩
 applied := ⟨[], []⟩
 mem_v4 := by simp
 mem_v6 := by simp
 scoped_eq := rfl

variable (s : Scope) (new : ProtectedNets)

theorem after_syncOps :
  s.maps.after (syncOps s.applied new) =
   { protectedV4 := (s.maps.protectedV4.eraseAll s.applied.v4).writeAll (new.v4.map (·, ())),
     protectedV6 := (s.maps.protectedV6.eraseAll s.applied.v6).writeAll (new.v6.map (·, ())),
     scopedFlag := !new.isEmpty } := by
 simp only [syncOps, ScopeMaps.after_append, ScopeMaps.after_removeV4, ScopeMaps.after_insertV4,
  ScopeMaps.after_removeV6, ScopeMaps.after_insertV6]
 rfl

def syncProtected : Scope where
 maps := s.maps.after (syncOps s.applied new)
 applied := new
 mem_v4 := by
  rw [after_syncOps]
  exact lookup_replaced new.v4 s.mem_v4
 mem_v6 := by
  rw [after_syncOps]
  exact lookup_replaced new.v6 s.mem_v6
 scoped_eq := by rw [after_syncOps]

variable (s : Scope) (new : ProtectedNets)

theorem outOfScope_iff (d : Dst) :
  s.maps.outOfScope d = true ↔ s.applied.isEmpty = false ∧ s.applied.covers d = false := by
 cases d with
 | v4 a =>
  have hlookup : (s.maps.protectedV4.longest a).isSome = s.applied.covers (.v4 a) := by
   rw [Bool.eq_iff_iff, Trie.longest_isSome_iff]
   simp [ProtectedNets.covers, s.mem_v4, and_comm]
  simp [ScopeMaps.outOfScope, s.scoped_eq, hlookup]
 | v6 a =>
  have hlookup : (s.maps.protectedV6.longest a).isSome = s.applied.covers (.v6 a) := by
   rw [Bool.eq_iff_iff, Trie.longest_isSome_iff]
   simp [ProtectedNets.covers, s.mem_v6, and_comm]
  simp [ScopeMaps.outOfScope, s.scoped_eq, hlookup]

def Keeps (applied new : ProtectedNets) (d : Dst) : Prop :=
 (applied.covers d = true ∧ new.covers d = true) ∨ (new.covers d = true ∧ applied.isEmpty = true) ∨
  (applied.covers d = true ∧ new.isEmpty = true)

def NoGap (d : Dst) : Prop :=
 ∀ done, done <+: syncOps s.applied new → (s.maps.after done).outOfScope d = false

theorem not_noGap_of_applied (hs : s.applied.isEmpty = false) (d : Dst) : ¬ s.NoGap new d := by
 intro hgap
 have hscoped : s.maps.scopedFlag = true := by simp [s.scoped_eq, hs]
 cases d with
 | v4 a =>
  have hdrained : (s.maps.protectedV4.eraseAll s.applied.v4).longest a = none := longest_drained s.mem_v4 a
  have hstate := hgap (s.applied.v4.map .removeV4) (prefix_append _ _)
  rw [ScopeMaps.after_removeV4] at hstate
  simp [ScopeMaps.outOfScope, hscoped, hdrained] at hstate
 | v6 a =>
  have hdrained : (s.maps.protectedV6.eraseAll s.applied.v6).longest a = none := longest_drained s.mem_v6 a
  have hstate := hgap (s.applied.v4.map .removeV4 ++ (new.v4.map .insertV4 ++ s.applied.v6.map .removeV6))
   ⟨new.v6.map .insertV6 ++ [.setScoped (!new.isEmpty)], by simp [syncOps]⟩
  rw [ScopeMaps.after_append, ScopeMaps.after_append, ScopeMaps.after_removeV4, ScopeMaps.after_insertV4,
   ScopeMaps.after_removeV6] at hstate
  simp [ScopeMaps.outOfScope, hscoped, hdrained] at hstate

theorem noGap_of_applied_empty {d : Dst} (hs : s.applied.isEmpty = true) (hd : new.covers d = true) :
  s.NoGap new d := by
 intro done hdone
 have hsplit : syncOps s.applied new = (new.v4.map .insertV4 ++ new.v6.map .insertV6) ++
   [.setScoped (!new.isEmpty)] := by
  obtain ⟨h4, h6⟩ := ProtectedNets.isEmpty_iff.mp hs
  simp [syncOps, h4, h6]
 rw [hsplit, prefix_concat_iff, ← hsplit] at hdone
 rcases hdone with rfl | hdone
 · have hout := (s.syncProtected new).outOfScope_iff d
   have happlied : (s.syncProtected new).applied = new := rfl
   rw [happlied, hd] at hout
   simpa [syncProtected] using hout
 have hflag : (s.maps.after done).scopedFlag = false := by
  rw [ScopeMaps.scopedFlag_after, s.scoped_eq, hs]
  · rfl
  intro op hop b
  have hmem := hdone.subset hop
  simp only [mem_append, mem_map] at hmem
  rcases hmem with ⟨c, -, rfl⟩ | ⟨c, -, rfl⟩ <;> simp
 cases d <;> simp [ScopeMaps.outOfScope, hflag]

def gapless (applied new : ProtectedNets) : Bool := applied.isEmpty || (!new.isEmpty && !applied.overlaps new)

theorem push_keeps_scope_iff :
  (∀ d, Keeps s.applied new d → s.NoGap new d) ↔ gapless s.applied new = true := by
 constructor
 · intro h
   by_contra hgap
   simp only [gapless, Bool.or_eq_true, Bool.and_eq_true, Bool.not_eq_true', not_or] at hgap
   obtain ⟨hs, hgap⟩ := hgap
   rw [Bool.not_eq_true] at hs
   obtain ⟨d, hd⟩ : ∃ d, Keeps s.applied new d := by
    by_cases hnew : new.isEmpty = true
    · obtain ⟨d, hd⟩ := ProtectedNets.exists_covers hs
      exact ⟨d, Or.inr (Or.inr ⟨hd, hnew⟩)⟩
    have hover : s.applied.overlaps new = true := by
     by_contra hover
     exact hgap ⟨by simpa using hnew, by simpa using hover⟩
    obtain ⟨d, hd⟩ := ProtectedNets.overlaps_iff.mp hover
    exact ⟨d, Or.inl hd⟩
   exact s.not_noGap_of_applied new hs d (h d hd)
 · intro h d hd
   simp only [gapless, Bool.or_eq_true, Bool.and_eq_true, Bool.not_eq_true'] at h
   rcases h with hs | ⟨hnew, hover⟩
   · refine s.noGap_of_applied_empty new hs ?_
     rcases hd with ⟨-, hd⟩ | ⟨hd, -⟩ | ⟨hd, -⟩
     · exact hd
     · exact hd
     · rw [ProtectedNets.not_covers_of_isEmpty hs] at hd
       cases hd
   · have hapart : ¬ (s.applied.covers d = true ∧ new.covers d = true) := by
      intro hboth
      rw [ProtectedNets.overlaps_iff.mpr ⟨d, hboth⟩] at hover
      cases hover
     rcases hd with hd | ⟨hd, hs⟩ | ⟨-, hempty⟩
     · exact absurd hd hapart
     · exact s.noGap_of_applied_empty new hs hd
     · rw [hempty] at hnew
       cases hnew

def oneNet : ProtectedNets := ⟨[Cidr.around 0x0a000000#32 8], []⟩

/-- Pushing the same network again leaves its addresses undefended between the removal and the insertion. -/
theorem same_network_pushed_again :
  Keeps (start.syncProtected oneNet).applied oneNet (.v4 0x0a000001#32) ∧
   ((start.syncProtected oneNet).maps.after
    ((syncOps (start.syncProtected oneNet).applied oneNet).take 1)).outOfScope (.v4 0x0a000001#32) = true := by
 refine ⟨Or.inl ⟨by decide +kernel, by decide +kernel⟩, by decide +kernel⟩

end Scope

end Lnvps.Firewall
