/-!
# Threads that take turns

Threads that share a state, each with a state of its own. A schedule says whose turn it is; a turn is
one atomic step of a thread. What every step keeps, whoever takes it, every schedule keeps.
-/

namespace SharedHeap

/-- A shared state and the threads that work on it. -/
structure Turns (σ τ : Type) where
  shared : σ
  threads : List τ

namespace Turns

variable {σ τ : Type} (step : σ → τ → σ × τ)

/-- Thread `i` takes its turn; nothing happens if there is no such thread. -/
def turn (s : Turns σ τ) (i : Nat) : Turns σ τ :=
  match s.threads[i]? with
  | none => s
  | some t => ⟨(step s.shared t).1, s.threads.set i (step s.shared t).2⟩

def play (s : Turns σ τ) (schedule : List Nat) : Turns σ τ := schedule.foldl (turn step) s

variable {step} {s : Turns σ τ}

theorem play_append (s : Turns σ τ) (schedule later : List Nat) :
    s.play step (schedule ++ later) = (s.play step schedule).play step later := List.foldl_append

theorem exists_eq_append_of_getElem? {l : List τ} {i : Nat} {t : τ} (ht : l[i]? = some t) :
    ∃ l₁ l₂, l = l₁ ++ t :: l₂ ∧ ∀ t', l.set i t' = l₁ ++ t' :: l₂ := by
  induction l generalizing i with
  | nil => simp at ht
  | cons a rest ih =>
    cases i with
    | zero =>
      obtain rfl : a = t := by simpa using ht
      exact ⟨[], rest, rfl, fun _ => rfl⟩
    | succ i =>
      obtain ⟨l₁, l₂, rfl, hset⟩ := ih (i := i) (by simpa using ht)
      exact ⟨a :: l₁, l₂, rfl, fun t' => congrArg (a :: ·) (hset t')⟩

/-- A turn is a step of one thread between the others. -/
theorem turn_cases (step : σ → τ → σ × τ) (s : Turns σ τ) (i : Nat) :
    s.turn step i = s ∨ ∃ l₁ t l₂, s.threads = l₁ ++ t :: l₂ ∧
      s.turn step i = ⟨(step s.shared t).1, l₁ ++ (step s.shared t).2 :: l₂⟩ := by
  unfold turn
  cases ht : s.threads[i]? with
  | none => exact .inl rfl
  | some t =>
    obtain ⟨l₁, l₂, hl, hset⟩ := exists_eq_append_of_getElem? ht
    exact .inr ⟨l₁, t, l₂, hl, by rw [← hset]⟩

theorem length_turn (s : Turns σ τ) (i : Nat) : (s.turn step i).threads.length = s.threads.length := by
  unfold turn
  split
  · rfl
  · exact List.length_set

theorem length_play (s : Turns σ τ) (schedule : List Nat) :
    (s.play step schedule).threads.length = s.threads.length := by
  induction schedule generalizing s with
  | nil => rfl
  | cons i rest ih => exact (ih (s.turn step i)).trans (length_turn s i)

theorem play_invariant {I : σ → List τ → Prop}
    (keeps : ∀ x l₁ t l₂, I x (l₁ ++ t :: l₂) → I (step x t).1 (l₁ ++ (step x t).2 :: l₂))
    (hi : I s.shared s.threads) (schedule : List Nat) :
    I (s.play step schedule).shared (s.play step schedule).threads := by
  induction schedule generalizing s with
  | nil => exact hi
  | cons i rest ih =>
    refine ih (s := s.turn step i) ?_
    rcases turn_cases step s i with he | ⟨l₁, t, l₂, hl, he⟩
    · rw [he]; exact hi
    · rw [he]; exact keeps _ _ _ _ (hl ▸ hi)

end Turns

end SharedHeap
