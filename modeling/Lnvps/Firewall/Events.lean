import Lnvps.Firewall.Detect
import Mathlib.Data.List.AList

/-! # The event stream -/

namespace Lnvps.Firewall

open List

structure MitInput where
 cidr : String
 flags : Flags
 (pps bps synPps : Nat := 0)

inductive EventKind
 | start
 | flags
 | stop
 deriving DecidableEq

structure PendingEvent extends MitInput where
 kind : EventKind

structure Mitigation extends MitInput where
 sinceUnix : Nat

structure MitTracker where
 prevFlags : AList (fun _ : String => Flags) := ∅
 since : AList (fun _ : String => Nat) := ∅
 peak : AList (fun _ : String => Nat × Nat × Nat) := ∅

structure MitTick where
 cur : List MitInput
 nowUnix : Nat := 0
 order : List String → List String := id

namespace MitTracker

def announce (t : MitTracker) (m : MitInput) : Option PendingEvent :=
 match t.prevFlags.lookup m.cidr with
 | none => some { m with kind := .start }
 | some pf => if pf ≠ m.flags then some { m with kind := .flags } else none

def curFlags (cur : List MitInput) : AList (fun _ : String => Flags) :=
 cur.foldl (fun acc m => acc.insert m.cidr m.flags) ∅

def gone (t : MitTracker) (l : MitTick) : List String := (l.order t.prevFlags.keys).filter (· ∉ curFlags l.cur)

def stopped (t : MitTracker) (peak : AList (fun _ : String => Nat × Nat × Nat)) (cidr : String) : PendingEvent :=
 let p := (peak.lookup cidr).getD (0, 0, 0)
 ⟨⟨cidr, (t.prevFlags.lookup cidr).getD 0, p.1, p.2.1, p.2.2⟩, .stop⟩

def step (t : MitTracker) (l : MitTick) : MitTracker × List Mitigation × List PendingEvent :=
  let peak := l.cur.foldl (fun acc m => acc.insert m.cidr (m.pps, m.bps, m.synPps)) t.peak
  let since := l.cur.foldl
    (fun acc m => if (t.prevFlags.lookup m.cidr).isNone then acc.insert m.cidr l.nowUnix else acc) t.since
  let active := l.cur.map fun m => { m with sinceUnix := (since.lookup m.cidr).getD l.nowUnix }
  ({ prevFlags := curFlags l.cur
     since := (t.gone l).foldl (fun m cidr => m.erase cidr) since
     peak := (t.gone l).foldl (fun m cidr => m.erase cidr) peak }, active,
    l.cur.filterMap t.announce ++ (t.gone l).map (t.stopped peak))

def events (t : MitTracker) : List MitTick → List PendingEvent
 | [] => []
 | l :: ticks => (t.step l).2.2 ++ events (t.step l).1 ticks

end MitTracker

abbrev ActiveSet := String → Option Flags

def activeSet (cur : List MitInput) : ActiveSet := fun cidr => (cur.find? (·.cidr = cidr)).map (·.flags)

def PendingEvent.result (e : PendingEvent) : Option Flags := if e.kind = .stop then none else some e.flags

def replay (s : ActiveSet) (e : PendingEvent) : ActiveSet := Function.update s e.cidr e.result

structure MitTick.Sound (l : MitTick) : Prop where
 nodup : (l.cur.map (·.cidr)).Nodup
 order : ∀ keys, (l.order keys).Perm keys

section Replay

variable {t : MitTracker} {l : MitTick} {s : ActiveSet} {es : List PendingEvent} {c : String}

theorem replay_of_notMem (h : c ∉ es.map (·.cidr)) : es.foldl replay s c = s c := by
 induction es generalizing s with
 | nil => rfl
 | cons e es ih =>
  rw [map_cons, mem_cons, not_or] at h
  rw [foldl_cons, ih h.2, replay, Function.update_of_ne h.1]

theorem replay_of_mem (hnodup : (es.map (·.cidr)).Nodup) {e : PendingEvent} (he : e ∈ es) :
  es.foldl replay s e.cidr = e.result := by
 induction es generalizing s with
 | nil => cases he
 | cons e' es ih =>
  rw [map_cons, nodup_cons] at hnodup
  rw [foldl_cons]
  rcases mem_cons.mp he with rfl | he
  · rw [replay_of_notMem hnodup.1, replay, Function.update_self]
  · exact ih hnodup.2 he

theorem lookup_curFlags {cur : List MitInput} (hnodup : (cur.map (·.cidr)).Nodup) (c : String) :
  (MitTracker.curFlags cur).lookup c = activeSet cur c := by
 induction cur using reverseRecOn with
 | nil => rfl
 | append_singleton cur m ih =>
  rw [map_append, nodup_append] at hnodup
  obtain ⟨hcur, -, hne⟩ := hnodup
  rw [MitTracker.curFlags, foldl_append, foldl_cons, foldl_nil, ← MitTracker.curFlags]
  by_cases hc : c = m.cidr
  · subst hc
    have hnone : cur.find? (·.cidr = m.cidr) = none := by
     simp only [find?_eq_none, decide_eq_true_eq]
     exact fun x hx => hne _ (mem_map_of_mem hx) _ (mem_singleton_self _)
    simp [activeSet, hnone]
  · rw [AList.lookup_insert_ne hc, ih hcur]
    simp [activeSet, Ne.symm hc]

theorem announce_eq_some {m : MitInput} {e : PendingEvent} (h : t.announce m = some e) :
  e.cidr = m.cidr ∧ e.result = some m.flags := by
 unfold MitTracker.announce at h
 split at h
 · cases h
   exact ⟨rfl, rfl⟩
 · split_ifs at h
   cases h
   exact ⟨rfl, rfl⟩

theorem announce_eq_none {m : MitInput} (h : t.announce m = none) : t.prevFlags.lookup m.cidr = some m.flags := by
 unfold MitTracker.announce at h
 split at h
 · cases h
 · split_ifs at h with hflags
   rename_i pf hlookup
   rw [hlookup, not_not.mp hflags]

theorem mem_curFlags (hl : l.Sound) : c ∈ MitTracker.curFlags l.cur ↔ ∃ m ∈ l.cur, m.cidr = c := by
 rw [← AList.lookup_isSome, lookup_curFlags hl.nodup, activeSet, Option.isSome_map, find?_isSome]
 simp

theorem mem_gone (hl : l.Sound) : c ∈ t.gone l ↔ c ∈ t.prevFlags ∧ ¬ ∃ m ∈ l.cur, m.cidr = c := by
 rw [MitTracker.gone, mem_filter, (hl.order _).mem_iff, decide_eq_true_eq, mem_curFlags hl, AList.mem_keys]

theorem announced_cidr (cur : List MitInput) :
  ((cur.filterMap t.announce).map (·.cidr)).Sublist (cur.map (·.cidr)) := by
 induction cur with
 | nil => exact .slnil
 | cons m cur ih =>
  rw [map_cons, filterMap_cons]
  split
  · exact ih.cons _
  · rename_i e he
    rw [map_cons, (announce_eq_some he).1]
    exact ih.cons_cons _

theorem events_cidr : (t.step l).2.2.map (·.cidr) = (l.cur.filterMap t.announce).map (·.cidr) ++ t.gone l := by
 simp [MitTracker.step, MitTracker.stopped, Function.comp_def]

theorem events_nodup (hl : l.Sound) : ((t.step l).2.2.map (·.cidr)).Nodup := by
 rw [events_cidr]
 refine nodup_append.mpr ⟨hl.nodup.sublist (announced_cidr l.cur), ?_, ?_⟩
 · exact ((hl.order _).nodup_iff.mpr t.prevFlags.nodupKeys).filter _
 · rintro a ha b hb rfl
   exact ((mem_gone hl).mp hb).2 (mem_map.mp ((announced_cidr l.cur).subset ha))

theorem replay_step (hl : l.Sound) (hs : ∀ c, s c = t.prevFlags.lookup c) :
  (t.step l).2.2.foldl replay s = activeSet l.cur := by
 funext c
 rw [activeSet]
 cases hfind : l.cur.find? (·.cidr = c) with
 | some m =>
  have hm := mem_of_find?_eq_some hfind
  obtain rfl : m.cidr = c := by simpa using find?_some hfind
  cases he : t.announce m with
  | some e =>
   have hmem : e ∈ (t.step l).2.2 := mem_append_left _ (mem_filterMap.mpr ⟨m, hm, he⟩)
   obtain ⟨hcidr, hresult⟩ := announce_eq_some he
   rw [← hcidr, replay_of_mem (events_nodup hl) hmem, hresult, Option.map_some]
  | none =>
   rw [replay_of_notMem, hs, announce_eq_none he, Option.map_some]
   rw [events_cidr, mem_append, not_or]
   refine ⟨fun h => ?_, fun h => ((mem_gone hl).mp h).2 ⟨m, hm, rfl⟩⟩
   obtain ⟨e, hmem, hcidr⟩ := mem_map.mp h
   obtain ⟨m', hm', he'⟩ := mem_filterMap.mp hmem
   have hsame := inj_on_of_nodup_map hl.nodup hm' hm ((announce_eq_some he').1.symm.trans hcidr)
   rw [hsame, he] at he'
   cases he'
 | none =>
  have hcur : ¬ ∃ m ∈ l.cur, m.cidr = c := by simpa using hfind
  by_cases hprev : c ∈ t.prevFlags
  · have hmem : t.stopped _ c ∈ (t.step l).2.2 :=
     mem_append_right _ (mem_map_of_mem ((mem_gone hl).mpr ⟨hprev, hcur⟩))
    exact replay_of_mem (events_nodup hl) hmem
  · rw [replay_of_notMem, hs, AList.lookup_eq_none.mpr hprev, Option.map_none]
    rw [events_cidr, mem_append, not_or]
    refine ⟨fun h => hcur (mem_map.mp ((announced_cidr l.cur).subset h)), fun h => hprev ((mem_gone hl).mp h).1⟩

theorem replay_events {ticks : List MitTick} (hticks : ∀ l ∈ ticks, l.Sound) (hl : l.Sound)
  (hs : ∀ c, s c = t.prevFlags.lookup c) : (t.events (ticks ++ [l])).foldl replay s = activeSet l.cur := by
 induction ticks generalizing t s with
 | nil => simpa [MitTracker.events] using replay_step hl hs
 | cons l' ticks ih =>
  rw [forall_mem_cons] at hticks
  rw [cons_append, MitTracker.events, foldl_append]
  refine ih hticks.2 fun c => ?_
  rw [replay_step hticks.1 hs]
  exact (lookup_curFlags hticks.1.nodup c).symm

end Replay

structure Event extends PendingEvent where
 (seq tsUnix : Nat)

structure EventRing where
 buf : List Event := []
 nextSeq : Nat := 1
 cap : Nat

namespace EventRing

def new (cap : Nat) : EventRing where
 cap := max cap 1

def push (r : EventRing) (e : PendingEvent) (tsUnix : Nat) : EventRing :=
 let buf := r.buf ++ [{ e with seq := r.nextSeq, tsUnix := tsUnix }]
 { r with buf := buf.drop (buf.length - r.cap), nextSeq := r.nextSeq + 1 }

def since (r : EventRing) (cursor : Nat) : List Event × Nat :=
 (r.buf.filter (cursor < ·.seq), max (r.nextSeq - 1) cursor)

abbrev Pushed := PendingEvent × Nat

def pushAll (r : EventRing) (w : List Pushed) : EventRing := w.foldl (fun r p => r.push p.1 p.2) r

def follow (r : EventRing) (cursor : Nat) : List (List Pushed) → List Event
 | [] => []
 | w :: ws => ((r.pushAll w).since cursor).1 ++ follow (r.pushAll w) ((r.pushAll w).since cursor).2 ws

def pushed (e : Event) : Pushed := (e.toPendingEvent, e.tsUnix)

structure Holds (r : EventRing) (n : Nat) (new : List Event) : Prop where
 buf : ∃ old, r.buf = old ++ new ∧ ∀ e ∈ old, e.seq ≤ n
 seq : ∀ e ∈ new, n < e.seq ∧ e.seq < r.nextSeq
 nextSeq : r.nextSeq = n + new.length + 1

variable {r : EventRing} {n : Nat} {new : List Event} {p : Pushed} {w : List Pushed}

theorem Holds.since_eq (h : r.Holds n new) : r.since n = (new, n + new.length) := by
 obtain ⟨old, hbuf, hold⟩ := h.buf
 have hfilter : old.filter (n < ·.seq) = [] := by simpa using hold
 have hall : new.filter (n < ·.seq) = new := filter_eq_self.mpr fun e he => by simp [(h.seq e he).1]
 rw [since, hbuf, filter_append, hfilter, hall, nil_append, h.nextSeq]
 simp

theorem Holds.polled (h : r.Holds n new) : r.Holds (n + new.length) [] := by
 obtain ⟨old, hbuf, hold⟩ := h.buf
 refine ⟨⟨old ++ new, by simpa using hbuf, fun e he => ?_⟩, nofun, by simpa using h.nextSeq⟩
 rcases mem_append.mp he with he | he
 · exact (hold e he).trans (Nat.le_add_right _ _)
 · have := (h.seq e he).2
   rw [h.nextSeq] at this
   omega

theorem Holds.push (h : r.Holds n new) (hlen : new.length < r.cap) :
  (r.push p.1 p.2).Holds n (new ++ [{ p.1 with seq := r.nextSeq, tsUnix := p.2 }]) := by
 obtain ⟨old, hbuf, hold⟩ := h.buf
 have hnext := h.nextSeq
 refine ⟨⟨old.drop (r.buf.length + 1 - r.cap), ?_, fun e he => hold e (mem_of_mem_drop he)⟩, ?_, ?_⟩
 · have hle : r.buf.length + 1 - r.cap ≤ old.length := by
    rw [hbuf, length_append]
    omega
   rw [hbuf] at hle
   simp only [EventRing.push, length_append, length_singleton]
   rw [hbuf, append_assoc, drop_append_of_le_length hle]
 · simp only [mem_append, mem_singleton, EventRing.push]
   rintro e (he | rfl)
   · have := h.seq e he
     omega
   · simp only
     omega
 · simp only [EventRing.push, hnext, length_append, length_singleton]
   omega

theorem Holds.pushAll (h : r.Holds n new) (hlen : new.length + w.length ≤ r.cap) :
  ∃ more, (r.pushAll w).Holds n (new ++ more) ∧ more.map pushed = w ∧ (r.pushAll w).cap = r.cap := by
 induction w generalizing r new with
 | nil => exact ⟨[], by simpa [EventRing.pushAll] using h, rfl, rfl⟩
 | cons p w ih =>
  rw [length_cons] at hlen
  have hpush : (r.push p.1 p.2).Holds n _ := h.push (by omega)
  obtain ⟨more, hmore, hw, hcap⟩ := ih hpush (by
   simp only [length_append, length_singleton, EventRing.push]
   omega)
  rw [append_assoc] at hmore
  exact ⟨_ :: more, hmore, by rw [map_cons, hw]; rfl, hcap⟩

theorem follow_of_holds (h : r.Holds n []) {ws : List (List Pushed)} (hws : ∀ w ∈ ws, w.length ≤ r.cap) :
  (r.follow n ws).map pushed = ws.flatten := by
 induction ws generalizing r n with
 | nil => rfl
 | cons w ws ih =>
  rw [forall_mem_cons] at hws
  obtain ⟨more, hmore, hw, hcap⟩ := h.pushAll (by simpa using hws.1)
  rw [nil_append] at hmore
  rw [follow, hmore.since_eq, map_append, hw, flatten_cons, ih hmore.polled (hcap ▸ hws.2)]

theorem pushAll_holds (h : r.Holds n []) (hcap : 0 < r.cap) (w : List Pushed) :
  (r.pushAll w).Holds (n + w.length) [] ∧ 0 < (r.pushAll w).cap := by
 induction w generalizing r n with
 | nil => exact ⟨h, hcap⟩
 | cons p w ih =>
  have hpush : (r.push p.1 p.2).Holds n _ := h.push hcap
  have hw := @ih _ _ hpush.polled hcap
  rwa [length_append, length_nil, length_singleton, Nat.add_assoc, Nat.zero_add, Nat.add_comm 1] at hw

end EventRing

theorem events_followed_iff (cap : Nat) (before : List EventRing.Pushed) (cursor : Nat) :
  (∀ (ticks : List MitTick) (l : MitTick), (∀ l' ∈ ticks ++ [l], l'.Sound) →
   (MitTracker.events {} (ticks ++ [l])).foldl replay (fun _ => none) = activeSet l.cur) ∧
  let r := (EventRing.new cap).pushAll before
  ((∀ ws : List (List EventRing.Pushed), (∀ w ∈ ws, w.length ≤ r.cap) →
   (r.follow (r.since cursor).2 ws).map EventRing.pushed = ws.flatten) ↔ cursor ≤ before.length) := by
 constructor
 · intro ticks l hsound
   rw [List.forall_mem_append] at hsound
   exact replay_events hsound.1 (hsound.2 l (List.mem_singleton_self l)) fun _ => rfl
 intro r
 have hnew : (EventRing.new cap).Holds 0 [] := ⟨⟨[], rfl, nofun⟩, nofun, rfl⟩
 obtain ⟨hr, hcap⟩ : r.Holds before.length [] ∧ 0 < r.cap := by
  simpa using EventRing.pushAll_holds hnew (by simp [EventRing.new]) before
 have hcursor : (r.since cursor).2 = max before.length cursor := by simp [EventRing.since, hr.nextSeq]
 rw [hcursor]
 constructor
 · intro h
   by_contra hlt
   rw [max_eq_right (by omega)] at h
   let p : EventRing.Pushed := ({ cidr := "", flags := 0, kind := .start }, 0)
   have hpush : (r.push p.1 p.2).Holds before.length _ := hr.push hcap
   obtain ⟨old, hbuf, hold⟩ := hpush.polled.buf
   have hnone : old.filter (cursor < ·.seq) = [] := by
    rw [List.filter_eq_nil_iff]
    intro e he
    have hle : e.seq ≤ before.length + 1 := hold e he
    rw [decide_eq_true_eq]
    omega
   have hseen := h [[p]] (by simpa using Nat.succ_le_of_lt hcap)
   simp [EventRing.follow, EventRing.pushAll, EventRing.since, hbuf, hnone] at hseen
 · intro hle ws hws
   rw [max_eq_left hle]
   exact EventRing.follow_of_holds hr hws

/-- A cursor from before a restart: the first events of the new ring are not seen. -/
theorem event_behind_cursor : ∃ (r : EventRing) (p : EventRing.Pushed),
  r = .new 1024 ∧ r.follow (r.since 5).2 [[p], [p]] = [] :=
 ⟨_, ({ cidr := "10.0.0.1/32", flags := 1, kind := .start }, 0), rfl, rfl⟩

end Lnvps.Firewall
