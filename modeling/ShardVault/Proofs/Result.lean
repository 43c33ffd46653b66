import Mathlib.Data.List.Forall2
import ShardVault.Failure

namespace ShardVault

universe u

variable {ε δ α β : Type u}

@[simp] theorem ok_bind (a : α) (f : α → Except ε β) : (Except.ok a >>= f) = f a := rfl

@[simp] theorem error_bind (e : ε) (f : α → Except ε β) : (Except.error e >>= f) = .error e := rfl

@[simp] theorem map_ok (f : α → β) (a : α) : (Except.ok a : Except ε α).map f = .ok (f a) := rfl

@[simp] theorem map_error (f : α → β) (e : ε) : (Except.error e : Except ε α).map f = .error e :=
  rfl

@[simp] theorem mapError_ok (f : ε → δ) (a : α) : (Except.ok a : Except ε α).mapError f = .ok a :=
  rfl

theorem bind_eq_ok {x : Except ε α} {f : α → Except ε β} {b : β} :
    (x >>= f) = .ok b ↔ ∃ a, x = .ok a ∧ f a = .ok b := by
  cases x with
  | ok a => simp
  | error e => simp

theorem bind_eq_error {x : Except ε α} {f : α → Except ε β} {e : ε} :
    (x >>= f) = .error e ↔ x = .error e ∨ ∃ a, x = .ok a ∧ f a = .error e := by
  cases x with
  | ok a => simp
  | error e => simp

theorem map_eq_ok {f : α → β} {x : Except ε α} {b : β} :
    x.map f = .ok b ↔ ∃ a, x = .ok a ∧ f a = b := by
  cases x with
  | ok a => simp
  | error e => simp

theorem exists_map_eq_ok {f : α → β} {x : Except ε α} :
    (∃ b, x.map f = .ok b) ↔ ∃ a, x = .ok a := by
  constructor
  · rintro ⟨b, h⟩
    obtain ⟨a, ha, -⟩ := map_eq_ok.1 h
    exact ⟨a, ha⟩
  · rintro ⟨a, rfl⟩
    exact ⟨f a, rfl⟩

theorem exists_bind_eq_ok {f : α → Except ε β} {x : Except ε α} :
    (∃ b, (x >>= f) = .ok b) ↔ ∃ a, x = .ok a ∧ ∃ b, f a = .ok b := by
  constructor
  · rintro ⟨b, h⟩
    obtain ⟨a, ha, hb⟩ := bind_eq_ok.1 h
    exact ⟨a, ha, b, hb⟩
  · rintro ⟨a, ha, b, hb⟩
    exact ⟨b, bind_eq_ok.2 ⟨a, ha, hb⟩⟩

theorem mapError_eq_ok {f : ε → δ} {x : Except ε α} {a : α} : x.mapError f = .ok a ↔ x = .ok a := by
  cases x with
  | ok b => simp
  | error e => exact ⟨nofun, nofun⟩

theorem mapM_eq_ok_iff {γ : Type u} {f : γ → Except ε α} {xs : List γ} {ys : List α} :
    xs.mapM f = .ok ys ↔ List.Forall₂ (fun x y ↦ f x = .ok y) xs ys := by
  induction xs generalizing ys with
  | nil =>
    constructor
    · intro h
      obtain rfl : [] = ys := Except.ok.inj h
      exact .nil
    · rintro ⟨⟩
      rfl
  | cons x xs ih =>
    rw [List.mapM_cons]
    constructor
    · intro h
      obtain ⟨y, hy, h⟩ := bind_eq_ok.1 h
      obtain ⟨rest, hrest, h⟩ := bind_eq_ok.1 h
      obtain rfl : y :: rest = ys := Except.ok.inj h
      exact .cons hy (ih.1 hrest)
    · intro h
      cases h with
      | cons hy hrest => exact bind_eq_ok.2 ⟨_, hy, bind_eq_ok.2 ⟨_, ih.2 hrest, rfl⟩⟩

theorem mapM_eq_ok {γ : Type u} {f : γ → Except ε α} {g : γ → α} {xs : List γ}
    (h : ∀ x ∈ xs, f x = .ok (g x)) : xs.mapM f = .ok (xs.map g) := by
  induction xs with
  | nil => rfl
  | cons x xs ih =>
    rw [List.mapM_cons, h x (by simp), ih fun y hy ↦ h y (by simp [hy])]
    rfl

theorem mapM_congr {γ : Type u} {f g : γ → Except ε α} {xs : List γ} (h : ∀ x ∈ xs, f x = g x) :
    xs.mapM f = xs.mapM g := by
  induction xs with
  | nil => rfl
  | cons x xs ih =>
    rw [List.mapM_cons, List.mapM_cons, h x (by simp), ih fun y hy ↦ h y (by simp [hy])]

theorem mapM_eq_ok_filterMap {γ : Type u} {f : γ → Except ε α} {g : γ → Option α} {xs : List γ}
    (h : ∀ x ∈ xs, ∃ a, f x = .ok a ∧ g x = some a) : xs.mapM f = .ok (xs.filterMap g) := by
  induction xs with
  | nil => rfl
  | cons x xs ih =>
    obtain ⟨a, hf, hg⟩ := h x (by simp)
    rw [List.mapM_cons, hf, ih fun y hy ↦ h y (by simp [hy]), List.filterMap_cons_some hg]
    rfl

theorem mapM_eq_ite {γ : Type u} {f : γ → Except ε α} {p : γ → Bool} {g : γ → α} {e : ε}
    (h : ∀ x, f x = if p x then .ok (g x) else .error e) (xs : List γ) :
    xs.mapM f = if xs.all p then .ok (xs.map g) else .error e := by
  induction xs with
  | nil => rfl
  | cons x xs ih =>
    rw [List.mapM_cons, h, ih, List.all_cons]
    cases p x with
    | false => rfl
    | true => cases xs.all p <;> rfl

structure FailsWith (P : ε → Prop) (x : Except ε α) : Prop where
  of_eq : ∀ failure, x = .error failure → P failure

namespace FailsWith

variable {P Q : ε → Prop} {x : Except ε α}

theorem ok (a : α) : FailsWith P (.ok a) := ⟨nofun⟩

theorem error {failure : ε} (h : P failure) : FailsWith P (.error failure : Except ε α) :=
  ⟨fun _ same ↦ Except.error.inj same ▸ h⟩

theorem mono (h : FailsWith P x) (weaker : ∀ failure, P failure → Q failure) : FailsWith Q x :=
  ⟨fun failure same ↦ weaker failure (h.of_eq failure same)⟩

theorem bind {f : α → Except ε β} (h : FailsWith P x) (hf : ∀ a, x = .ok a → FailsWith P (f a)) :
    FailsWith P (x >>= f) := by
  rcases x with failure | a
  · exact error (h.of_eq failure rfl)
  · exact hf a rfl

theorem map (h : FailsWith P x) (f : α → β) : FailsWith P (x.map f) := by
  rcases x with failure | a
  · exact error (h.of_eq failure rfl)
  · exact ok _

theorem mapError {result : Except δ α} {f : δ → ε} (h : ∀ fault, P (f fault)) :
    FailsWith P (result.mapError f) := by
  rcases result with fault | a
  · exact error (h fault)
  · exact ok a

theorem ite {c : Prop} [Decidable c] {y : Except ε α} (hx : FailsWith P x) (hy : FailsWith P y) :
    FailsWith P (if c then x else y) := by
  split
  · exact hx
  · exact hy

theorem dite {c : Prop} [Decidable c] {f : c → Except ε α} {g : ¬ c → Except ε α}
    (hf : ∀ h, FailsWith P (f h)) (hg : ∀ h, FailsWith P (g h)) :
    FailsWith P (if h : c then f h else g h) := by
  split
  · exact hf _
  · exact hg _

theorem ite_eq_error_iff {c : Prop} [Decidable c] {failure : ε} (h : FailsWith (· ≠ failure) x) :
    (if c then x else .error failure) = .error failure ↔ ¬ c := by
  split
  · next taken => exact iff_of_false (fun same ↦ h.of_eq failure same rfl) (not_not.2 taken)
  · next passed => exact iff_of_true rfl passed

theorem mapM {γ : Type u} {f : γ → Except ε α} {xs : List γ} (h : ∀ x ∈ xs, FailsWith P (f x)) :
    FailsWith P (xs.mapM f) := by
  induction xs with
  | nil => exact ok []
  | cons x xs ih =>
    obtain ⟨first, others⟩ := List.forall_mem_cons.1 h
    rw [List.mapM_cons]
    refine first.bind fun y _ ↦ ?_
    exact (ih others).bind fun ys _ ↦ ok (y :: ys)

end FailsWith

end ShardVault
