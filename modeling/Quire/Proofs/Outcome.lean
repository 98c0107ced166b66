/-!
# Outcomes

What a success or a failure says about the steps that led to it, and results that cannot be told
apart by whether and how they fail.
-/

namespace Quire

variable {ε ε' α β : Type}

theorem bind_eq_ok {x : Except ε α} {f : α → Except ε β} {b : β} (h : x >>= f = .ok b) :
    ∃ a, x = .ok a ∧ f a = .ok b := by
  cases x with
  | error failure => contradiction
  | ok a => exact ⟨a, rfl, h⟩

theorem mapError_eq_ok {x : Except ε α} {f : ε → ε'} {a : α} (h : x.mapError f = .ok a) :
    x = .ok a := by
  cases x with
  | error failure => contradiction
  | ok b => exact congrArg _ (Except.ok.inj h)

theorem bind_eq_error {x : Except ε α} {f : α → Except ε β} {failure : ε}
    (h : x >>= f = .error failure) :
    x = .error failure ∨ ∃ a, x = .ok a ∧ f a = .error failure := by
  cases x with
  | error first => exact .inl (congrArg _ (Except.error.inj h))
  | ok a => exact .inr ⟨a, rfl, h⟩

theorem mapError_eq_error {x : Except ε α} {f : ε → ε'} {failure : ε'}
    (h : x.mapError f = .error failure) : ∃ cause, x = .error cause ∧ failure = f cause := by
  cases x with
  | error cause => exact ⟨cause, rfl, (Except.error.inj h).symm⟩
  | ok a => contradiction

/-- Results with the same image fail both in the same way, or succeed both with the same image. -/
theorem map_eq_map {γ : Type} {x : Except ε α} {y : Except ε β} {f : α → γ} {g : β → γ}
    (h : x.map f = y.map g) :
    (∃ failure, x = .error failure ∧ y = .error failure) ∨
      ∃ a b, x = .ok a ∧ y = .ok b ∧ f a = g b := by
  cases x with
  | error failure =>
    cases y with
    | error other => exact .inl ⟨failure, rfl, congrArg _ (Except.error.inj h).symm⟩
    | ok b => contradiction
  | ok a =>
    cases y with
    | error other => contradiction
    | ok b => exact .inr ⟨a, b, rfl, rfl, Except.ok.inj h⟩

/-- All steps of a list succeed, each with its own result. -/
theorem mapM_eq_ok_iff {f : α → Except ε β} {xs : List α} {ys : List β} :
    xs.mapM f = .ok ys ↔ xs.map f = ys.map .ok := by
  induction xs generalizing ys with
  | nil =>
    rw [List.mapM_nil, List.map_nil]
    cases ys with
    | nil => exact ⟨fun _ => rfl, fun _ => rfl⟩
    | cons y ys => exact ⟨nofun, nofun⟩
  | cons x xs ih =>
    rw [List.mapM_cons, List.map_cons]
    constructor
    · intro h
      obtain ⟨y, first, h⟩ := bind_eq_ok h
      obtain ⟨rest, others, h⟩ := bind_eq_ok h
      cases h
      rw [first, ih.mp others, List.map_cons]
    · intro h
      cases ys with
      | nil => contradiction
      | cons y ys =>
        obtain ⟨first, others⟩ := List.cons.inj h
        rw [first, ih.mpr others]
        rfl

/-- Two results that succeed both, or fail both in the same way. -/
inductive SameOutcome : Except ε α → Except ε β → Prop where
  | ok (a : α) (b : β) : SameOutcome (.ok a) (.ok b)
  | error (failure : ε) : SameOutcome (.error failure) (.error failure)

namespace SameOutcome

variable {γ δ : Type}

theorem bind {x : Except ε α} {y : Except ε β} {f : α → Except ε γ} {g : β → Except ε δ}
    (first : SameOutcome x y) (rest : ∀ a b, SameOutcome (f a) (g b)) :
    SameOutcome (x >>= f) (y >>= g) := by
  cases first with
  | ok a b => exact rest a b
  | error failure => exact .error failure

/-- A first step that is the same in both leaves only what comes behind it. -/
theorem bind_same {x : Except ε α} {f : α → Except ε γ} {g : α → Except ε δ}
    (rest : ∀ a, SameOutcome (f a) (g a)) : SameOutcome (x >>= f) (x >>= g) := by
  cases x with
  | error failure => exact .error failure
  | ok a => exact rest a

theorem mapError {x : Except ε α} {y : Except ε β} (h : SameOutcome x y) (f : ε → ε') :
    SameOutcome (x.mapError f) (y.mapError f) := by
  cases h with
  | ok a b => exact .ok a b
  | error failure => exact .error (f failure)

end SameOutcome

end Quire
