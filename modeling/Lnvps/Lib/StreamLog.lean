import Mathlib.Tactic

/-! # A stream with a consumer group -/

namespace StreamLog

open List Option

structure Entry (α : Type) where
 id : Nat
 value : α
 deriving DecidableEq

structure Pending where
 (id deliveredAt : Nat)

structure Group where
 lastDelivered : Nat
 pending : List Pending := []

structure Log (α : Type) where
 entries : List (Entry α) := []
 lastId : Nat := 0
 group : Option Group := none
 sorted : entries.Pairwise (fun e e' => e.id < e'.id) := by simp
 le : ∀ e ∈ entries, e.id ≤ lastId := by simp
 group_le : ∀ g ∈ group, g.lastDelivered ≤ lastId := by simp

variable {α : Type}

def Group.reading (g : Group) (es : List (Entry α)) (now : Nat) : Group where
 lastDelivered := (es.getLast?.map (·.id)).getD g.lastDelivered
 pending := g.pending ++ es.map fun e => ⟨e.id, now⟩

def scan (find : Nat → Option (Entry α)) (now minIdle : Nat) :
  (attempts count : Nat) → List Pending → List Pending × List (Entry α)
 | 0, _, ps => (ps, [])
 | _ + 1, 0, ps => (ps, [])
 | _ + 1, _ + 1, [] => ([], [])
 | attempts + 1, count + 1, p :: ps =>
  match find p.id with
  | none => scan find now minIdle attempts count ps
  | some e =>
   if now - p.deliveredAt < minIdle then
    let (ps', es) := scan find now minIdle attempts (count + 1) ps
    (p :: ps', es)
   else
    let (ps', es) := scan find now minIdle attempts count ps
    ({ p with deliveredAt := now } :: ps', e :: es)

namespace Log

variable (L : Log α)

def add (value : α) (trimmed : Nat) : Log α where
 entries := L.entries.drop trimmed ++ [⟨L.lastId + 1, value⟩]
 lastId := L.lastId + 1
 group := L.group
 sorted := by
  rw [pairwise_append]
  refine ⟨L.sorted.sublist (drop_sublist _ _), pairwise_singleton _ _, fun e he e' he' => ?_⟩
  obtain rfl := mem_singleton.mp he'
  exact Nat.lt_succ_of_le (L.le e (mem_of_mem_drop he))
 le := by
  intro e he
  rcases mem_append.mp he with hold | hnew
  · exact Nat.le_succ_of_le (L.le e (mem_of_mem_drop hold))
  · obtain rfl := mem_singleton.mp hnew
    exact Nat.le_refl _
 group_le := fun g hg => Nat.le_succ_of_le (L.group_le g hg)

def createGroup : Log α := { L with
 group := some (L.group.getD { lastDelivered := L.lastId })
 group_le := by
  intro g hg
  obtain rfl := mem_some.mp hg
  cases h : L.group with
  | none => exact Nat.le_refl _
  | some g => exact L.group_le g h }

def mapGroup (f : Group → Group) (hf : ∀ g, g.lastDelivered ≤ L.lastId → (f g).lastDelivered ≤ L.lastId) : Log α :=
 { L with
   group := L.group.map f
   group_le := by
    intro g hg
    obtain ⟨g', hg', rfl⟩ := map_eq_some_iff.mp hg
    exact hf g' (L.group_le g' hg') }

def undelivered (g : Group) : List (Entry α) := L.entries.filter fun e => g.lastDelivered < e.id

theorem reading_le {g : Group} {es : List (Entry α)} {now n : Nat} (hg : g.lastDelivered ≤ n)
  (hes : ∀ e ∈ es, e.id ≤ n) : (g.reading es now).lastDelivered ≤ n := by
 unfold Group.reading
 cases hlast : es.getLast? with
 | none => exact hg
 | some e => exact hes e (mem_of_getLast? hlast)

def readGroup (now count : Nat) : Log α × List (Entry α) :=
 (L.mapGroup (fun g => g.reading ((L.undelivered g).take count) now) fun _ hg =>
   reading_le hg fun e he => L.le e (mem_of_mem_filter (mem_of_mem_take he)),
  (L.group.map fun g => (L.undelivered g).take count).getD [])

def find (id : Nat) : Option (Entry α) := L.entries.find? fun e => e.id = id

def autoClaim (now minIdle attempts count : Nat) : Log α × List (Entry α) :=
 (L.mapGroup (fun g => { g with pending := (scan L.find now minIdle attempts count g.pending).1 }) fun _ hg => hg,
  (L.group.map fun g => (scan L.find now minIdle attempts count g.pending).2).getD [])

def ack (id : Nat) : Log α :=
 L.mapGroup (fun g => { g with pending := g.pending.filter fun p => p.id ≠ id }) fun _ hg => hg

def Available (id : Nat) : Prop :=
 ∃ g, L.group = some g ∧ (∃ e ∈ L.entries, e.id = id) ∧ (g.lastDelivered < id ∨ ∃ p ∈ g.pending, p.id = id)

def backlog : Nat := (L.group.map fun g => g.pending.length + (L.undelivered g).length).getD 0

variable {L} {id now minIdle attempts count trimmed : Nat} {value : α} {g : Group} {e : Entry α}

section Scan

variable (find : Nat → Option (Entry α)) (now minIdle) {ps : List Pending} (attempts count : Nat)

theorem scan_pending (ps : List Pending) :
  (∀ p ∈ (scan find now minIdle attempts count ps).1, ∃ p' ∈ ps, p'.id = p.id) ∧
   ∀ p ∈ ps, find p.id ≠ none → ∃ p' ∈ (scan find now minIdle attempts count ps).1, p'.id = p.id := by
 fun_induction scan find now minIdle attempts count ps with
 | case1 | case2 => exact ⟨fun p hp => ⟨p, hp, rfl⟩, fun p hp _ => ⟨p, hp, rfl⟩⟩
 | case3 => simp
 | case4 attempts count p ps hnone ih =>
  refine ⟨fun q hq => ?_, forall_mem_cons.mpr ⟨fun hne => absurd hnone hne, ih.2⟩⟩
  obtain ⟨q', hq', hid⟩ := ih.1 q hq
  exact ⟨q', mem_cons_of_mem _ hq', hid⟩
 | case5 attempts count p ps e hfind hlt ps' es heq ih | case6 attempts count p ps e hfind hlt ps' es heq ih =>
  rw [heq] at ih
  constructor
  · refine forall_mem_cons.mpr ⟨⟨p, mem_cons_self, rfl⟩, fun q hq => ?_⟩
    obtain ⟨q', hq', hid⟩ := ih.1 q hq
    exact ⟨q', mem_cons_of_mem _ hq', hid⟩
  · refine forall_mem_cons.mpr ⟨fun _ => ⟨_, mem_cons_self, rfl⟩, fun q hq hne => ?_⟩
    obtain ⟨q', hq', hid⟩ := ih.2 q hq hne
    exact ⟨q', mem_cons_of_mem _ hq', hid⟩

theorem mem_scan (ps : List Pending) {e : Entry α}
  (he : e ∈ (scan find now minIdle attempts count ps).2) : ∃ p ∈ ps, find p.id = some e := by
 fun_induction scan find now minIdle attempts count ps with
 | case1 | case2 | case3 => exact absurd he not_mem_nil
 | case4 attempts count p ps hnone ih =>
  obtain ⟨p', hp', hfind⟩ := ih he
  exact ⟨p', mem_cons_of_mem _ hp', hfind⟩
 | case5 attempts count p ps e' hfind hlt ps' es heq ih =>
  obtain ⟨p', hp', hfind⟩ := ih (heq ▸ he)
  exact ⟨p', mem_cons_of_mem _ hp', hfind⟩
 | case6 attempts count p ps e' hfind hlt ps' es heq ih =>
  rcases mem_cons.mp he with rfl | he
  · exact ⟨p, mem_cons_self, hfind⟩
  obtain ⟨p', hp', hfind⟩ := ih (heq ▸ he)
  exact ⟨p', mem_cons_of_mem _ hp', hfind⟩

theorem length_scan_le (ps : List Pending) : (scan find now minIdle attempts count ps).1.length ≤ ps.length := by
 fun_induction scan find now minIdle attempts count ps with
 | case1 | case2 | case3 => exact Nat.le_refl _
 | case4 attempts count p ps hnone ih => exact Nat.le_succ_of_le ih
 | case5 attempts count p ps e hfind hlt ps' es heq ih | case6 attempts count p ps e hfind hlt ps' es heq ih =>
  rw [heq] at ih
  exact Nat.succ_le_succ ih

theorem scan_progress (hps : ps ≠ []) (hidle : ∀ p ∈ ps, minIdle ≤ now - p.deliveredAt) (attempts count : Nat) :
  (scan find now minIdle (attempts + 1) (count + 1) ps).2 ≠ [] ∨
   (scan find now minIdle (attempts + 1) (count + 1) ps).1.length < ps.length := by
 cases ps with
 | nil => exact absurd rfl hps
 | cons p ps =>
  rw [scan]
  cases find p.id with
  | none => exact .inr (Nat.lt_succ_of_le (length_scan_le now minIdle find attempts count ps))
  | some e =>
   simp only [if_neg (Nat.not_lt.mpr (hidle p mem_cons_self))]
   exact .inl (cons_ne_nil _ _)

end Scan

theorem find_eq_some (h : L.find id = some e) : e ∈ L.entries ∧ e.id = id :=
 ⟨mem_of_find?_eq_some h, by simpa using List.find?_some h⟩

theorem find_ne_none (h : ∃ e ∈ L.entries, e.id = id) : L.find id ≠ none := by
 obtain ⟨e, he, hid⟩ := h
 intro hnone
 have hno := List.find?_eq_none.mp hnone e he
 exact hno (decide_eq_true hid)

theorem Available.le (h : L.Available id) : id ≤ L.lastId := by
 obtain ⟨-, -, ⟨e, he, rfl⟩, -⟩ := h
 exact L.le e he

theorem available_add_iff (h : id ≤ L.lastId) :
  (L.add value trimmed).Available id ↔ L.Available id ∧ ∀ e ∈ L.entries.take trimmed, e.id ≠ id := by
 have hentries : (∃ e ∈ (L.add value trimmed).entries, e.id = id) ↔
   (∃ e ∈ L.entries, e.id = id) ∧ ∀ e ∈ L.entries.take trimmed, e.id ≠ id := by
  have hsplit : L.entries.take trimmed ++ L.entries.drop trimmed = L.entries := take_append_drop _ _
  have hsorted := L.sorted
  rw [← hsplit, pairwise_append] at hsorted
  constructor
  · rintro ⟨e, he, hid⟩
    rcases mem_append.mp he with hold | hnew
    · refine ⟨⟨e, mem_of_mem_drop hold, hid⟩, fun e' he' hid' => ?_⟩
      have hlt := hsorted.2.2 e' he' e hold
      omega
    · obtain rfl := mem_singleton.mp hnew
      simp only at hid
      omega
  · rintro ⟨⟨e, he, hid⟩, hkept⟩
    rw [← hsplit] at he
    rcases mem_append.mp he with htrimmed | hold
    · exact absurd hid (hkept e htrimmed)
    · exact ⟨e, mem_append_left _ hold, hid⟩
 constructor
 · rintro ⟨g, hg, he, hread⟩
   obtain ⟨he, hkept⟩ := hentries.mp he
   exact ⟨⟨g, hg, he, hread⟩, hkept⟩
 · rintro ⟨⟨g, hg, he, hread⟩, hkept⟩
   exact ⟨g, hg, hentries.mpr ⟨he, hkept⟩, hread⟩

theorem available_add_new : (L.add value trimmed).Available (L.lastId + 1) ↔ L.group.isSome = true := by
 constructor
 · rintro ⟨g, hg, -⟩
   exact isSome_iff_exists.mpr ⟨g, hg⟩
 intro h
 obtain ⟨g, hg⟩ := isSome_iff_exists.mp h
 exact ⟨g, hg, ⟨_, mem_append_right _ (mem_singleton_self _), rfl⟩,
  .inl (Nat.lt_succ_of_le (L.group_le g hg))⟩

theorem available_createGroup_iff : L.createGroup.Available id ↔ L.Available id := by
 constructor
 · rintro ⟨g, hg, ⟨e, he, hid⟩, hread⟩
   have hle := L.le e he
   have hgroup : L.group.getD { lastDelivered := L.lastId } = g := Option.some.inj hg
   cases hnone : L.group with
   | some g' =>
    rw [hnone, getD_some] at hgroup
    exact ⟨g', hnone, ⟨e, he, hid⟩, hgroup ▸ hread⟩
   | none =>
    rw [hnone, getD_none] at hgroup
    subst hgroup
    rcases hread with hlt | ⟨p, hp, -⟩
    · simp only at hlt
      omega
    · exact absurd hp not_mem_nil
 · rintro ⟨g, hg, he, hread⟩
   exact ⟨g, by simp [createGroup, hg], he, hread⟩

theorem createGroup_of_some (hg : L.group = some g) : L.createGroup = L := by
 cases L
 subst hg
 rfl

theorem available_mapGroup {f : Group → Group} {hf} : (L.mapGroup f hf).Available id ↔ ∃ g, L.group = some g ∧
  (∃ e ∈ L.entries, e.id = id) ∧ ((f g).lastDelivered < id ∨ ∃ p ∈ (f g).pending, p.id = id) := by
 unfold Available mapGroup
 simp [map_eq_some_iff]

theorem mem_undelivered : e ∈ L.undelivered g ↔ e ∈ L.entries ∧ g.lastDelivered < e.id := by
 simp [undelivered]

theorem undelivered_sorted : (L.undelivered g).Pairwise (fun e e' => e.id < e'.id) :=
 L.sorted.sublist filter_sublist

theorem lastDelivered_reading (g : Group) (es : List (Entry α)) (now : Nat) :
  (es = [] ∧ (g.reading es now).lastDelivered = g.lastDelivered) ∨
   ∃ e ∈ es, (g.reading es now).lastDelivered = e.id := by
 unfold Group.reading
 cases hlast : es.getLast? with
 | none => exact .inl ⟨List.getLast?_eq_none_iff.mp hlast, rfl⟩
 | some e => exact .inr ⟨e, mem_of_getLast? hlast, rfl⟩

theorem le_lastDelivered_reading (L : Log α) (g : Group) (now count : Nat) :
  g.lastDelivered ≤ (g.reading ((L.undelivered g).take count) now).lastDelivered := by
 rcases lastDelivered_reading g ((L.undelivered g).take count) now with ⟨-, heq⟩ | ⟨e, he, heq⟩
 · exact heq.ge
 · rw [heq]
   exact (mem_undelivered.mp (mem_of_mem_take he)).2.le

theorem available_readGroup_iff : (L.readGroup now count).1.Available id ↔ L.Available id := by
 rw [readGroup, available_mapGroup]
 refine exists_congr fun g => and_congr_right fun hg => and_congr_right fun ⟨e, he, hid⟩ => ?_
 constructor
 · rintro (hlt | ⟨p, hp, hpid⟩)
   · exact .inl (Nat.lt_of_le_of_lt (le_lastDelivered_reading L g now count) hlt)
   rcases mem_append.mp hp with hold | hnew
   · exact .inr ⟨p, hold, hpid⟩
   obtain ⟨e', he', rfl⟩ := mem_map.mp hnew
   have hlt := (mem_undelivered.mp (mem_of_mem_take he')).2
   simp only at hpid
   exact .inl (by omega)
 · rintro (hlt | ⟨p, hp, hpid⟩)
   · have hmem : e ∈ L.undelivered g := mem_undelivered.mpr ⟨he, by omega⟩
     rw [← take_append_drop count (L.undelivered g)] at hmem
     rcases mem_append.mp hmem with htake | hdrop
     · exact .inr ⟨⟨e.id, now⟩, mem_append_right _ (mem_map.mpr ⟨e, htake, rfl⟩), hid⟩
     left
     have hsorted := L.undelivered_sorted (g := g)
     rw [← take_append_drop count (L.undelivered g), pairwise_append] at hsorted
     rcases lastDelivered_reading g ((L.undelivered g).take count) now with ⟨-, heq⟩ | ⟨e', he', heq⟩
     · rwa [heq]
     · have hbefore := hsorted.2.2 e' he' e hdrop
       rw [heq]
       omega
   · exact .inr ⟨p, mem_append_left _ hp, hpid⟩

theorem available_of_mem_readGroup (he : e ∈ (L.readGroup now count).2) : e ∈ L.entries ∧ L.Available e.id := by
 unfold readGroup at he
 cases hg : L.group with
 | none => simp [hg] at he
 | some g =>
  simp only [hg, map_some, getD_some] at he
  obtain ⟨hmem, hlt⟩ := mem_undelivered.mp (mem_of_mem_take he)
  exact ⟨hmem, g, hg, ⟨e, hmem, rfl⟩, .inl hlt⟩

theorem available_autoClaim_iff : (L.autoClaim now minIdle attempts count).1.Available id ↔ L.Available id := by
 rw [autoClaim, available_mapGroup]
 refine exists_congr fun g => and_congr_right fun hg => and_congr_right fun hlog => or_congr_right ?_
 obtain ⟨hsub, hkeep⟩ := scan_pending now minIdle L.find attempts count g.pending
 constructor
 · rintro ⟨p, hp, rfl⟩
   exact hsub p hp
 · rintro ⟨p, hp, rfl⟩
   exact hkeep p hp (find_ne_none hlog)

theorem available_of_mem_autoClaim (he : e ∈ (L.autoClaim now minIdle attempts count).2) :
  e ∈ L.entries ∧ L.Available e.id := by
 unfold autoClaim at he
 cases hg : L.group with
 | none => simp [hg] at he
 | some g =>
  simp only [hg, map_some, getD_some] at he
  obtain ⟨p, hp, hfind⟩ := mem_scan now minIdle L.find attempts count g.pending he
  obtain ⟨hmem, hid⟩ := find_eq_some hfind
  exact ⟨hmem, g, hg, ⟨e, hmem, rfl⟩, .inr ⟨p, hp, hid.symm⟩⟩

theorem autoClaim_of_nil (hg : L.group = some g) (hpending : g.pending = []) :
  L.autoClaim now minIdle attempts count = (L, []) := by
 have hscan : scan L.find now minIdle attempts count [] = ([], []) := by
  cases attempts <;> cases count <;> rfl
 cases L
 subst hg
 simp only [autoClaim, mapGroup, map_some, getD_some, hpending, hscan, Prod.mk.injEq, and_true,
  Log.mk.injEq, Option.some.injEq, true_and]
 rw [← hpending]

theorem undelivered_ne_nil (hg : L.group = some g) (hpending : g.pending = []) (h : L.Available id) :
  L.undelivered g ≠ [] := by
 obtain ⟨g', hg', ⟨e, he, hid⟩, hread⟩ := h
 obtain rfl : g = g' := Option.some.inj (hg.symm.trans hg')
 rcases hread with hlt | ⟨p, hp, -⟩
 · exact ne_nil_of_mem (mem_undelivered.mpr ⟨he, by omega⟩)
 · exact absurd (hpending ▸ hp) not_mem_nil

theorem Available.of_ack {a : Nat} (h : (L.ack a).Available id) : L.Available id := by
 rw [ack, available_mapGroup] at h
 obtain ⟨g, hg, he, hlt | ⟨p, hp, hid⟩⟩ := h
 · exact ⟨g, hg, he, .inl hlt⟩
 · exact ⟨g, hg, he, .inr ⟨p, mem_of_mem_filter hp, hid⟩⟩

theorem Available.ack {a : Nat} (h : L.Available id) (hne : id ≠ a) : (L.ack a).Available id := by
 rw [Log.ack, available_mapGroup]
 obtain ⟨g, hg, he, hlt | ⟨p, hp, hid⟩⟩ := h
 · exact ⟨g, hg, he, .inl hlt⟩
 · refine ⟨g, hg, he, .inr ⟨p, mem_filter.mpr ⟨hp, ?_⟩, hid⟩⟩
   rw [decide_eq_true_eq, hid]
   exact hne

def ackAll (L : Log α) (ids : List Nat) : Log α := ids.foldl ack L

theorem Available.ackAll {ids : List Nat} (h : L.Available id) (hid : id ∉ ids) : (L.ackAll ids).Available id := by
 induction ids generalizing L with
 | nil => exact h
 | cons a ids ih =>
  rw [mem_cons, not_or] at hid
  exact ih (h.ack hid.1) hid.2

theorem ackAll_spec (L : Log α) (ids : List Nat) : (L.ackAll ids).entries = L.entries ∧
  (L.ackAll ids).group = L.group.map fun g => { g with pending := g.pending.filter fun p => p.id ∉ ids } := by
 induction ids generalizing L with
 | nil => simp [ackAll]
 | cons a ids ih =>
  obtain ⟨hentries, hgroup⟩ := ih (L.ack a)
  refine ⟨hentries, hgroup.trans ?_⟩
  simp only [ack, mapGroup, Option.map_map]
  congr 1
  funext g
  simp only [Function.comp, List.filter_filter, List.mem_cons, not_or, Bool.decide_and]
  congr 2
  funext p
  exact Bool.and_comm _ _

theorem backlog_eq (hg : L.group = some g) : L.backlog = g.pending.length + (L.undelivered g).length := by
 simp [backlog, hg]

theorem undelivered_congr {L' : Log α} {g' : Group} (hentries : L'.entries = L.entries)
  (hread : g'.lastDelivered = g.lastDelivered) : L'.undelivered g' = L.undelivered g := by
 simp only [undelivered, hentries, hread]

theorem backlog_autoClaim_lt (attempts count : Nat) (hg : L.group = some g) (hpending : g.pending ≠ [])
  (hidle : ∀ p ∈ g.pending, minIdle ≤ now - p.deliveredAt) :
  ((L.autoClaim now minIdle (attempts + 1) (count + 1)).1.ackAll
   ((L.autoClaim now minIdle (attempts + 1) (count + 1)).2.map (·.id))).backlog < L.backlog := by
 have hes : (L.autoClaim now minIdle (attempts + 1) (count + 1)).2 =
   (scan L.find now minIdle (attempts + 1) (count + 1) g.pending).2 := by
  simp [autoClaim, hg]
 have hgroup : (L.autoClaim now minIdle (attempts + 1) (count + 1)).1.group =
   some { g with pending := (scan L.find now minIdle (attempts + 1) (count + 1) g.pending).1 } := by
  simp [autoClaim, mapGroup, hg]
 obtain ⟨hentries, hacked⟩ := ackAll_spec (L.autoClaim now minIdle (attempts + 1) (count + 1)).1
  ((L.autoClaim now minIdle (attempts + 1) (count + 1)).2.map (·.id))
 rw [hgroup, map_some] at hacked
 rw [backlog_eq hacked, backlog_eq hg, undelivered_congr hentries rfl, undelivered_congr (L := L) rfl rfl, hes]
 refine Nat.add_lt_add_right ?_ _
 have hle := length_scan_le now minIdle L.find (attempts + 1) (count + 1) g.pending
 rcases scan_progress now minIdle L.find hpending hidle attempts count with hclaimed | hdropped
 · obtain ⟨e, he⟩ := exists_mem_of_ne_nil _ hclaimed
   obtain ⟨p, hp, hfind⟩ := mem_scan now minIdle L.find _ _ _ he
   obtain ⟨p', hp', hid⟩ := (scan_pending now minIdle L.find (attempts + 1) (count + 1) g.pending).2 p hp
    (by rw [hfind]; exact some_ne_none e)
   refine Nat.lt_of_lt_of_le (length_filter_lt_length_iff_exists.mpr ⟨p', hp', ?_⟩) hle
   rw [decide_eq_true_eq, not_not, hid, ← (find_eq_some hfind).2]
   exact mem_map_of_mem he
 · exact Nat.lt_of_le_of_lt (length_filter_le _ _) hdropped

theorem backlog_readGroup_lt (hg : L.group = some g) (hpending : g.pending = []) (hnew : L.undelivered g ≠ []) :
  ((L.readGroup now (count + 1)).1.ackAll ((L.readGroup now (count + 1)).2.map (·.id))).backlog < L.backlog := by
 have hes : (L.readGroup now (count + 1)).2 = (L.undelivered g).take (count + 1) := by simp [readGroup, hg]
 have hgroup : (L.readGroup now (count + 1)).1.group = some (g.reading ((L.undelivered g).take (count + 1)) now) := by
  simp [readGroup, mapGroup, hg]
 obtain ⟨hentries, hacked⟩ := ackAll_spec (L.readGroup now (count + 1)).1 ((L.readGroup now (count + 1)).2.map (·.id))
 rw [hgroup, map_some] at hacked
 have hnone : (g.reading ((L.undelivered g).take (count + 1)) now).pending.filter
   (fun p => p.id ∉ ((L.undelivered g).take (count + 1)).map (·.id)) = [] := by
  refine filter_eq_nil_iff.mpr fun p hp => ?_
  simp only [Group.reading, hpending, nil_append] at hp
  obtain ⟨e, he, rfl⟩ := mem_map.mp hp
  rw [decide_eq_true_eq, not_not]
  exact mem_map_of_mem he
 rw [backlog_eq hacked, backlog_eq hg, undelivered_congr hentries rfl, hes, hnone, hpending]
 refine Nat.add_lt_add_left ?_ _
 rcases lastDelivered_reading g ((L.undelivered g).take (count + 1)) now with ⟨hnil, -⟩ | ⟨e, he, heq⟩
 · exact absurd (take_eq_nil_iff.mp hnil) (by simp [hnew])
 have hrest : L.undelivered (g.reading ((L.undelivered g).take (count + 1)) now) =
   (L.undelivered g).filter fun e' => e.id < e'.id := by
  have hle := le_lastDelivered_reading L g now (count + 1)
  rw [heq] at hle
  unfold undelivered at heq ⊢
  rw [heq, List.filter_filter]
  refine filter_congr fun e' _ => ?_
  rw [← Bool.decide_and]
  exact decide_eq_decide.mpr ⟨fun h => ⟨h, by omega⟩, fun h => h.1⟩
 change (L.undelivered (g.reading ((L.undelivered g).take (count + 1)) now)).length < _
 rw [hrest]
 refine length_filter_lt_length_iff_exists.mpr ⟨e, mem_of_mem_take he, ?_⟩
 rw [decide_eq_true_eq]
 exact Nat.lt_irrefl _

end Log

end StreamLog
