/-! # Programs of remote calls -/

namespace Remote

variable {κ σ α β : Type} {Reply : κ → Type}

inductive Prog (Reply : κ → Type) (α : Type)
 | pure (a : α)
 | fail
 | call (c : κ) (next : Option (Reply c) → Prog Reply α)

namespace Prog

def bind : Prog Reply α → (α → Prog Reply β) → Prog Reply β
 | .pure a, k => k a
 | .fail, _ => .fail
 | .call c next, k => .call c fun r => (next r).bind k

instance : Monad (Prog Reply) where
 pure := .pure
 bind := .bind

end Prog

def command (c : κ) : Prog Reply (Reply c) := .call c fun
 | some a => .pure a
 | none => .fail

def attempt (c : κ) : Prog Reply (Option (Reply c)) := .call c .pure

def ofOption : Option α → Prog Reply α
 | some a => .pure a
 | none => .fail

def all : List κ → Prog Reply Unit
 | [] => .pure ()
 | c :: cs => do
  let _ ← command c
  all cs

section Semantics

variable (handle : (c : κ) → σ → Option (Reply c × σ))

inductive Ends : Prog Reply α → σ → Option α → σ → Prop
 | pure (a : α) (s : σ) : Ends (.pure a) s (some a) s
 | fail (s : σ) : Ends .fail s none s
 | fault {c : κ} {next : Option (Reply c) → Prog Reply α} {s t : σ} {r : Option α} :
   Ends (next none) s r t → Ends (.call c next) s r t
 | reply {c : κ} {next : Option (Reply c) → Prog Reply α} {s s' t : σ} {a : Reply c} {r : Option α} :
   handle c s = some (a, s') → Ends (next (some a)) s' r t → Ends (.call c next) s r t

inductive Visits : Prog Reply α → σ → σ → Prop
 | here (p : Prog Reply α) (s : σ) : Visits p s s
 | fault {c : κ} {next : Option (Reply c) → Prog Reply α} {s t : σ} :
   Visits (next none) s t → Visits (.call c next) s t
 | reply {c : κ} {next : Option (Reply c) → Prog Reply α} {s s' t : σ} {a : Reply c} :
   handle c s = some (a, s') → Visits (next (some a)) s' t → Visits (.call c next) s t

def exec : Prog Reply α → σ → Option α × σ
 | .pure a, s => (some a, s)
 | .fail, s => (none, s)
 | .call c next, s =>
  match handle c s with
  | some (a, s') => exec (next (some a)) s'
  | none => exec (next none) s

def after : List κ → σ → Option σ
 | [], s => some s
 | c :: cs, s => (handle c s).bind fun r => after cs r.2

end Semantics

section Rules

variable {handle : (c : κ) → σ → Option (Reply c × σ)} {m : Prog Reply α} {k : α → Prog Reply β} {s t : σ}

variable {a : α} {c : κ} {cs : List κ}

theorem ends_pure {b : α} : Ends handle (.pure a : Prog Reply α) s (some b) t ↔ b = a ∧ t = s := by
 constructor
 · intro h
   cases h
   exact ⟨rfl, rfl⟩
 · rintro ⟨rfl, rfl⟩
   exact .pure _ _

theorem visits_pure : Visits handle (.pure a : Prog Reply α) s t ↔ t = s := by
 constructor
 · intro h
   cases h
   rfl
 · rintro rfl
   exact .here _ _

theorem not_ends_fail : ¬ Ends handle (.fail : Prog Reply α) s (some a) t := nofun

theorem visits_fail : Visits handle (.fail : Prog Reply α) s t ↔ t = s := by
 constructor
 · intro h
   cases h
   rfl
 · rintro rfl
   exact .here _ _

variable {next : Option (Reply c) → Prog Reply α}

theorem ends_call {r : Option α} :
  Ends handle (.call c next) s r t ↔
   Ends handle (next none) s r t ∨ ∃ a u, handle c s = some (a, u) ∧ Ends handle (next (some a)) u r t := by
 constructor
 · intro h
   cases h with
   | fault h => exact .inl h
   | reply hc h => exact .inr ⟨_, _, hc, h⟩
 · rintro (h | ⟨a, u, hc, h⟩)
   · exact .fault h
   · exact .reply hc h

theorem visits_call :
  Visits handle (.call c next) s t ↔
   t = s ∨ Visits handle (next none) s t ∨ ∃ a u, handle c s = some (a, u) ∧ Visits handle (next (some a)) u t := by
 constructor
 · intro h
   cases h with
   | here => exact .inl rfl
   | fault h => exact .inr (.inl h)
   | reply hc h => exact .inr (.inr ⟨_, _, hc, h⟩)
 · rintro (rfl | h | ⟨a, u, hc, h⟩)
   · exact .here _ _
   · exact .fault h
   · exact .reply hc h

theorem ends_bind {b : β} :
  Ends handle (m >>= k) s (some b) t ↔ ∃ a u, Ends handle m s (some a) u ∧ Ends handle (k a) u (some b) t := by
 change Ends handle (m.bind k) s (some b) t ↔ _
 induction m generalizing s with
 | pure a => simp [Prog.bind, ends_pure, and_assoc]
 | fail => simp [Prog.bind, not_ends_fail]
 | call c next ih =>
  simp only [Prog.bind, ends_call, ih]
  constructor
  · rintro (⟨a, u, hm, hk⟩ | ⟨r, v, hc, a, u, hm, hk⟩)
    · exact ⟨a, u, .inl hm, hk⟩
    · exact ⟨a, u, .inr ⟨r, v, hc, hm⟩, hk⟩
  · rintro ⟨a, u, hm | ⟨r, v, hc, hm⟩, hk⟩
    · exact .inl ⟨a, u, hm, hk⟩
    · exact .inr ⟨r, v, hc, a, u, hm, hk⟩

theorem visits_bind :
  Visits handle (m >>= k) s t ↔
   Visits handle m s t ∨ ∃ a u, Ends handle m s (some a) u ∧ Visits handle (k a) u t := by
 change Visits handle (m.bind k) s t ↔ _
 induction m generalizing s with
 | pure a =>
  simp only [Prog.bind, visits_pure, ends_pure]
  constructor
  · intro h
    exact .inr ⟨a, s, ⟨rfl, rfl⟩, h⟩
  · rintro (rfl | ⟨_, _, ⟨rfl, rfl⟩, hk⟩)
    · exact .here _ _
    · exact hk
 | fail => simp [Prog.bind, not_ends_fail, visits_fail]
 | call c next ih =>
  simp only [Prog.bind, visits_call, ends_call, ih]
  constructor
  · rintro (rfl | (h | ⟨a, u, hm, hk⟩) | ⟨r, v, hc, h | ⟨a, u, hm, hk⟩⟩)
    · exact .inl (.inl rfl)
    · exact .inl (.inr (.inl h))
    · exact .inr ⟨a, u, .inl hm, hk⟩
    · exact .inl (.inr (.inr ⟨r, v, hc, h⟩))
    · exact .inr ⟨a, u, .inr ⟨r, v, hc, hm⟩, hk⟩
  · rintro ((rfl | h | ⟨r, v, hc, h⟩) | ⟨a, u, hm | ⟨r, v, hc, hm⟩, hk⟩)
    · exact .inl rfl
    · exact .inr (.inl (.inl h))
    · exact .inr (.inr ⟨r, v, hc, .inl h⟩)
    · exact .inr (.inl (.inr ⟨a, u, hm, hk⟩))
    · exact .inr (.inr ⟨r, v, hc, .inr ⟨a, u, hm, hk⟩⟩)

theorem exec_bind : exec handle (m >>= k) s =
  match exec handle m s with
  | (some a, u) => exec handle (k a) u
  | (none, u) => (none, u) := by
 change exec handle (m.bind k) s = _
 induction m generalizing s with
 | pure a => rfl
 | fail => rfl
 | call c next ih =>
  simp only [Prog.bind, exec]
  rcases handle c s with _ | ⟨a, u⟩
  · exact ih none
  · exact ih (some a)

theorem exec_bind_of (h : exec handle m s = (some a, t)) : exec handle (m >>= k) s = exec handle (k a) t := by
 rw [exec_bind, h]

theorem exec_ends (handle : (c : κ) → σ → Option (Reply c × σ)) (p : Prog Reply α) (s : σ) :
  Ends handle p s (exec handle p s).1 (exec handle p s).2 := by
 induction p generalizing s with
 | pure a => exact .pure a s
 | fail => exact .fail s
 | call c next ih =>
  rw [exec]
  rcases hc : handle c s with _ | ⟨a, u⟩
  · exact .fault (ih none s)
  · exact .reply hc (ih (some a) u)

theorem Ends.visits {r : Option α} (h : Ends handle m s r t) : Visits handle m s t := by
 induction h with
 | pure a s => exact .here _ _
 | fail s => exact .here _ _
 | fault _ ih => exact .fault ih
 | reply hc _ ih => exact .reply hc ih

theorem ends_command {a : Reply c} : Ends handle (command c) s (some a) t ↔ handle c s = some (a, t) := by
 simp [command, ends_call, not_ends_fail, ends_pure]

theorem visits_command : Visits handle (command c) s t ↔ t = s ∨ ∃ a, handle c s = some (a, t) := by
 simp [command, visits_call, visits_fail, visits_pure]

theorem ends_attempt {r : Option (Reply c)} : Ends handle (attempt c) s (some r) t ↔
  (r = none ∧ t = s) ∨ ∃ a, r = some a ∧ handle c s = some (a, t) := by
 simp only [attempt, ends_call, ends_pure]
 refine or_congr_right ⟨?_, ?_⟩
 · rintro ⟨a, u, hc, rfl, rfl⟩
   exact ⟨a, rfl, hc⟩
 · rintro ⟨a, rfl, hc⟩
   exact ⟨a, t, hc, rfl, rfl⟩

theorem visits_attempt : Visits handle (attempt c) s t ↔ t = s ∨ ∃ a, handle c s = some (a, t) := by
 simp [attempt, visits_call, visits_pure]

theorem exec_attempt (handle : (c : κ) → σ → Option (Reply c × σ)) (c : κ) (s : σ) : exec handle (attempt c) s =
  match handle c s with
  | some (a, t) => (some (some a), t)
  | none => (some none, s) := by
 rw [attempt, exec]
 rcases handle c s with _ | ⟨a, t⟩ <;> rfl

theorem exec_command {a : Reply c} (h : handle c s = some (a, t)) : exec handle (command c) s = (some a, t) := by
 rw [command, exec, h]
 rfl

theorem ends_ofOption {x : Option α} : Ends handle (ofOption x : Prog Reply α) s (some a) t ↔ x = some a ∧ t = s := by
 cases x with
 | none => simp [ofOption, not_ends_fail]
 | some b => simp [ofOption, ends_pure, eq_comm]

theorem visits_ofOption {x : Option α} : Visits handle (ofOption x : Prog Reply α) s t ↔ t = s := by
 cases x with
 | none => exact visits_fail
 | some a => exact visits_pure

theorem ends_all {u : Unit} : Ends handle (all cs : Prog Reply Unit) s (some u) t ↔ after handle cs s = some t := by
 induction cs generalizing s with
 | nil =>
  rw [all, after]
  constructor
  · intro h
    cases h
    rfl
  · intro h
    cases h
    exact .pure () _
 | cons c cs ih =>
  rw [all, after, ends_bind]
  simp only [ends_command, ih, Option.bind_eq_some_iff, Prod.exists]

theorem visits_all : Visits handle (all cs : Prog Reply Unit) s t ↔ ∃ n, after handle (cs.take n) s = some t := by
 induction cs generalizing s with
 | nil =>
  rw [all]
  constructor
  · intro h
    cases h
    exact ⟨0, rfl⟩
  rintro ⟨n, h⟩
  rw [List.take_nil] at h
  cases h
  exact .here _ _
 | cons c cs ih =>
  rw [all, visits_bind]
  simp only [ends_command, visits_command, ih]
  constructor
  · rintro ((rfl | ⟨a, hc⟩) | ⟨a, u, hc, n, hn⟩)
    · exact ⟨0, rfl⟩
    · exact ⟨1, by simp [after, hc]⟩
    · exact ⟨n + 1, by simp [after, hc, hn]⟩
  rintro ⟨n, hn⟩
  cases n with
  | zero =>
   cases hn
   exact .inl (.inl rfl)
  | succ n =>
   rw [List.take_succ_cons, after] at hn
   obtain ⟨⟨a, u⟩, hc, hn⟩ := Option.bind_eq_some_iff.mp hn
   exact .inr ⟨a, u, hc, n, hn⟩

theorem exec_all (h : after handle cs s = some t) : exec handle (all cs : Prog Reply Unit) s = (some (), t) := by
 induction cs generalizing s with
 | nil =>
  cases h
  rfl
 | cons c cs ih =>
  rw [after] at h
  obtain ⟨⟨a, v⟩, hc, hcs⟩ := Option.bind_eq_some_iff.mp h
  rw [all, exec_bind_of (exec_command hc)]
  exact ih hcs

end Rules

end Remote
