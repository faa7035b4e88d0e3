import Flowchart.Action

/-!
# What actions come to

Actions that are run one after the other come to what the last of them comes to, on the state that those before it have
left. An action that fails ends the run with what it has left.
-/

namespace Flowchart

namespace Act

variable {σ α β : Type} {s mid after : σ}

theorem out_bind (act : Act σ α) (next : α → Act σ β) (s : σ) :
    (act >>= next).out s = match act.out s with
      | (.ok a, mid) => (next a).out mid
      | (.error e, mid) => (.error e, mid) := by
  rw [out, out]
  simp only [bind, ExceptT.bind, ExceptT.run, ExceptT.mk, StateT.bind, StateT.run]
  rcases act s with ⟨_ | a, mid⟩ <;> rfl

theorem out_bind_of_ok {act : Act σ α} {next : α → Act σ β} {a : α} (done : act.out s = (.ok a, mid)) :
    (act >>= next).out s = (next a).out mid := by
  rw [out_bind, done]

/-- Either the first action has failed, or both were run. -/
theorem out_bind_eq {act : Act σ α} {next : α → Act σ β} {r : Except Failure β}
    (done : (act >>= next).out s = (r, after)) :
    (∃ e, act.out s = (.error e, after) ∧ r = .error e) ∨
      ∃ a mid, act.out s = (.ok a, mid) ∧ (next a).out mid = (r, after) := by
  rw [out_bind] at done
  rcases first : act.out s with ⟨e | a, mid⟩
  · rw [first] at done
    cases done
    exact .inl ⟨e, rfl, rfl⟩
  · rw [first] at done
    exact .inr ⟨a, mid, rfl, done⟩

/-- A step that cannot fail is run before the rest. -/
theorem out_bind_eq_of_ok {act : Act σ α} {next : α → Act σ β} {a : α} {r : Except Failure β}
    (first : act.out s = (.ok a, mid)) (done : (act >>= next).out s = (r, after)) :
    (next a).out mid = (r, after) := by
  rwa [out_bind_of_ok first] at done

theorem out_get : (get : Act σ σ).out s = (.ok s, s) := rfl

theorem out_getThe : (getThe σ : Act σ σ).out s = (.ok s, s) := rfl

theorem out_modify {f : σ → σ} : (modify f : Act σ PUnit).out s = (.ok ⟨⟩, f s) := rfl

theorem out_attempt (act : Act σ α) (s : σ) : act.attempt.out s = (.ok (act.out s).1, (act.out s).2) := rfl

theorem out_ofExcept (x : Except Failure α) (s : σ) : (Act.ofExcept x).out s = (x, s) := rfl

theorem ofExcept_out {x r : Except Failure α} (done : (Act.ofExcept x : Act σ α).out s = (r, after)) :
    x = r ∧ s = after := by
  cases done
  exact ⟨rfl, rfl⟩

end Act

end Flowchart
