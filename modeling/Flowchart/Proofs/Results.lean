import Mathlib.Data.List.Forall2
import Flowchart.Schema.Record

/-!
# Steps that succeed

A computation that may fail succeeds exactly when each of its steps does, and fails where the first of them
fails. There is one lemma for each way in which steps are joined, for `Except` and for checks.

`Agree` compares two computations: both succeed, with values that are related, or both fail in the same way.
-/

namespace Flowchart

theorem bind_eq_ok_iff {x : Except ε α} {f : α → Except ε β} {b : β} :
    (x >>= f) = .ok b ↔ ∃ a, x = .ok a ∧ f a = .ok b := by
  cases x with
  | error e => simp [bind, Except.bind]
  | ok a => simp [bind, Except.bind]

theorem map_eq_ok_iff {x : Except ε α} {f : α → β} {b : β} :
    x.map f = .ok b ↔ ∃ a, x = .ok a ∧ f a = b := by
  cases x with
  | error e => simp [Except.map]
  | ok a => simp [Except.map]

theorem mapError_eq_ok_iff {x : Except ε α} {f : ε → δ} {a : α} : x.mapError f = .ok a ↔ x = .ok a := by
  cases x with
  | error e => simp [Except.mapError]
  | ok a => simp [Except.mapError]

theorem mapError_eq_error_iff {x : Except ε α} {f : ε → δ} {error : δ} :
    x.mapError f = .error error ↔ ∃ e, x = .error e ∧ f e = error := by
  cases x with
  | error e => simp [Except.mapError]
  | ok a => simp [Except.mapError]

theorem bind_eq_error_iff {x : Except ε α} {f : α → Except ε β} {error : ε} :
    (x >>= f) = .error error ↔ x = .error error ∨ ∃ a, x = .ok a ∧ f a = .error error := by
  cases x with
  | error e => simp [bind, Except.bind]
  | ok a => simp [bind, Except.bind]

theorem map_eq_error_iff {x : Except ε α} {f : α → β} {error : ε} :
    x.map f = .error error ↔ x = .error error := by
  cases x with
  | error e => simp [Except.map]
  | ok a => simp [Except.map]

theorem map_bind_eq {x : Except ε α} {f : α → Except ε β} {g : β → γ} :
    (x >>= f).map g = x >>= fun a => (f a).map g := by
  cases x with
  | error e => rfl
  | ok a => rfl

/-- A list is gone through if each of its items is fine. -/
theorem mapM_eq_ok_map {f : α → Except ε β} {g : α → β} {items : List α} (each : ∀ a ∈ items, f a = .ok (g a)) :
    items.mapM f = .ok (items.map g) := by
  induction items with
  | nil => rfl
  | cons a items ih =>
    have tail := ih fun b member => each b (List.mem_cons_of_mem a member)
    rw [List.mapM_cons, each a List.mem_cons_self, tail]
    rfl

/-- Either each item is read, or one of them is refused. -/
theorem mapM_cases {f : α → Except ε β} {g : α → β} {P : α → Prop} {Q : ε → Prop} {items : List α}
    (each : ∀ a ∈ items, (f a = .ok (g a) ∧ P a) ∨ ∃ e, f a = .error e ∧ Q e ∧ ¬P a) :
    (items.mapM f = .ok (items.map g) ∧ ∀ a ∈ items, P a) ∨
      ∃ a ∈ items, ∃ e, items.mapM f = .error e ∧ Q e ∧ ¬P a := by
  induction items with
  | nil => exact .inl ⟨rfl, nofun⟩
  | cons a items ih =>
    rw [List.mapM_cons]
    obtain ⟨here, holds⟩ | ⟨e, here, refused, fails⟩ := each a List.mem_cons_self
    · obtain ⟨rest, all⟩ | ⟨b, mem, e, rest, refused, fails⟩ := ih fun b mem => each b (List.mem_cons_of_mem a mem)
      · exact .inl ⟨by rw [here, rest]; rfl, List.forall_mem_cons.mpr ⟨holds, all⟩⟩
      · exact .inr ⟨b, List.mem_cons_of_mem a mem, e, by rw [here, rest]; rfl, refused, fails⟩
    · exact .inr ⟨a, List.mem_cons_self, e, by rw [here]; rfl, refused, fails⟩

/-- A list that is not gone through has an item at which that ends. -/
theorem exists_of_mapM_eq_error {f : α → Except ε β} {items : List α} {e : ε} (failed : items.mapM f = .error e) :
    ∃ a ∈ items, f a = .error e := by
  induction items with
  | nil => cases failed
  | cons a items ih =>
    rw [List.mapM_cons] at failed
    rcases bind_eq_error_iff.mp failed with here | ⟨b, -, failed⟩
    · exact ⟨a, List.mem_cons_self, here⟩
    · rcases bind_eq_error_iff.mp failed with later | ⟨_, -, done⟩
      · obtain ⟨other, member, failed⟩ := ih later
        exact ⟨other, List.mem_cons_of_mem a member, failed⟩
      · cases done

/-- Two computations come to related values, or fail with the same error. -/
inductive Agree (R : α → β → Prop) : Except ε α → Except ε β → Prop
  | ok {a b} (related : R a b) : Agree R (.ok a) (.ok b)
  | error (e) : Agree R (.error e) (.error e)

namespace Agree

theorem refl {R : α → α → Prop} (each : ∀ a, R a a) (x : Except ε α) : Agree R x x := by
  cases x with
  | ok a => exact .ok (each a)
  | error e => exact .error e

theorem mono {R S : α → β → Prop} {x : Except ε α} {y : Except ε β} (agree : Agree R x y)
    (weaker : ∀ a b, R a b → S a b) : Agree S x y := by
  cases agree with
  | ok related => exact .ok (weaker _ _ related)
  | error e => exact .error e

theorem bind {R : α → β → Prop} {S : γ → δ → Prop} {x : Except ε α} {y : Except ε β}
    {f : α → Except ε γ} {g : β → Except ε δ} (first : Agree R x y)
    (rest : ∀ a b, R a b → Agree S (f a) (g b)) : Agree S (x >>= f) (y >>= g) := by
  cases first with
  | ok related => exact rest _ _ related
  | error e => exact .error e

theorem map {R : α → β → Prop} {S : γ → δ → Prop} {x : Except ε α} {y : Except ε β} {f : α → γ} {g : β → δ}
    (agree : Agree R x y) (each : ∀ a b, R a b → S (f a) (g b)) : Agree S (x.map f) (y.map g) := by
  cases agree with
  | ok related => exact .ok (each _ _ related)
  | error e => exact .error e

theorem map_left {R : α → β → Prop} {S : γ → β → Prop} {x : Except ε α} {y : Except ε β} {f : α → γ}
    (agree : Agree R x y) (each : ∀ a b, R a b → S (f a) b) : Agree S (x.map f) y := by
  cases agree with
  | ok related => exact .ok (each _ _ related)
  | error e => exact .error e

/-- Values that are related are what the computations come to. -/
theorem attach {R : α → β → Prop} {x : Except ε α} {y : Except ε β} (agree : Agree R x y) :
    Agree (fun a b => R a b ∧ x = .ok a ∧ y = .ok b) x y := by
  cases agree with
  | ok related => exact .ok ⟨related, rfl, rfl⟩
  | error e => exact .error e

theorem eq {x y : Except ε α} (agree : Agree Eq x y) : x = y := by
  cases agree with
  | ok same => exact congrArg _ same
  | error e => rfl

end Agree

namespace Checked

variable {α β : Type u}

theorem map_eq_ok {x : Checked α} {f : α → β} {b : β} :
    f <$> x = .ok b ↔ ∃ a, x = .ok a ∧ f a = b := by
  cases x with
  | ok a => simp [Functor.map, Checked.map]
  | bad issues => simp [Functor.map, Checked.map]

theorem seq_eq_ok {f : Checked (α → β)} {x : Checked α} {b : β} :
    f <*> x = .ok b ↔ ∃ g a, f = .ok g ∧ x = .ok a ∧ g a = b := by
  cases f with
  | ok g =>
    cases x with
    | ok a => simp [Seq.seq, Checked.apply]
    | bad issues => simp [Seq.seq, Checked.apply]
  | bad issues =>
    cases x with
    | ok a => simp [Seq.seq, Checked.apply]
    | bad more => simp [Seq.seq, Checked.apply]

theorem under_eq_ok {x : Checked α} {step : PathStep} {a : α} :
    x.under step = .ok a ↔ x = .ok a := by
  cases x with
  | ok a => simp [under]
  | bad issues => simp [under]

theorem andThen_eq_ok {x : Checked α} {next : α → Checked β} {b : β} :
    x.andThen next = .ok b ↔ ∃ a, x = .ok a ∧ next a = .ok b := by
  cases x with
  | ok a => simp [andThen]
  | bad issues => simp [andThen]

/-- Items are fine when each of them is. -/
theorem items_eq_ok {check : Json → Checked α} {position : Nat} {items : List Json} {values : List α} :
    Checked.items check position items = .ok values ↔
      List.Forall₂ (fun item value => check item = .ok value) items values := by
  induction items generalizing position values with
  | nil =>
    cases values with
    | nil => simp [Checked.items]
    | cons value values => simp [Checked.items]
  | cons item items ih =>
    simp only [Checked.items, seq_eq_ok, map_eq_ok, under_eq_ok]
    constructor
    · rintro ⟨_, rest, ⟨value, head, rfl⟩, tail, rfl⟩
      exact .cons head (ih.1 tail)
    · intro all
      cases all with
      | cons head tail => exact ⟨_, _, ⟨_, head, rfl⟩, ih.2 tail, rfl⟩

end Checked

end Flowchart
