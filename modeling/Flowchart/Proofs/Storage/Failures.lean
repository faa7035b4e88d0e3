import Flowchart.Proofs.Storage.Paths
import Flowchart.Proofs.Storage.Upkeep

/-!
# What a call of the store leaves

* `Act.Reads`: an action that changes nothing, such as `Store.fetch` and `Store.list`.
* `Store.save_files`, `Store.update_files`, `Store.delete_files`: a call that fails changes no file, and only
  deleting takes a file away.
* `Store.fetch_refused`: a file is refused if it is not read at any time.
-/

namespace Flowchart

/-! ### Reading -/

/-- The action changes nothing, so it keeps whatever holds. -/
def Act.Reads {σ α : Type} (act : Act σ α) : Prop := ∀ P : σ → Prop, act.Keeps P fun _ => True

namespace Store

theorem fetch_reads (owner id : String) : (fetch owner id).Reads := by
  refine fun P => .of_out fun s r after holds done => ?_
  obtain ⟨rfl, -⟩ := fetch_out done
  exact ⟨holds, fun _ _ => trivial⟩

theorem list_reads (owner : String) : (list owner).Reads := by
  intro P
  refine .bind (Act.keeps_ofExcept (Q := fun _ => True) fun _ _ => trivial) fun directory _ => ?_
  refine .bind Act.keeps_get fun s _ => ?_
  exact .bind (Act.keeps_ofExcept (Q := fun _ => True) fun _ _ => trivial) fun found _ =>
    Act.keeps_ofExcept fun _ _ => trivial

end Store

/-! ### Writing -/

namespace Store

variable {owner id : String} {s after : Store}

/-- Every flowchart that has a file has one still. -/
def Grows (s after : Store) : Prop :=
  ∀ owner id, (s.text? owner id).isSome = true → (after.text? owner id).isSome = true

theorem Grows.refl (s : Store) : Grows s s := fun _ _ present => present

/-- There is a file for the flowchart that is not read at any time. -/
def IsUnreadable (owner id : String) (s : Store) : Prop :=
  ∃ text, s.text? owner id = some text ∧ ∀ now back, StoredDocument.parse now text ≠ .ok back

theorem path_error {e : Failure} (failed : path owner id = .error e) (report : ErrorReport) :
    e ≠ .reported report := by
  by_cases named : owner = ""
  · subst named
    cases failed
    nofun
  · cases (path_eq named id).symm.trans failed

/-- Writing a file fails only for an owner without a name. -/
theorem put_files {stored : StoredDocument} {r : Except Failure Unit} (done : (put stored).out s = (r, after)) :
    Grows s after ∧ ∀ e, r = .error e → after.files = s.files ∧ ∀ report, e ≠ .reported report := by
  unfold put at done
  obtain ⟨e, failed, rfl⟩ | ⟨place, mid, found, done⟩ := Act.out_bind_eq done
  · obtain ⟨missing, rfl⟩ := Act.ofExcept_out failed
    refine ⟨.refl _, fun e same => ⟨rfl, ?_⟩⟩
    cases same
    exact path_error missing
  · obtain ⟨named, rfl⟩ := Act.ofExcept_out found
    cases done
    refine ⟨fun other otherId => ?_, nofun⟩
    unfold text?
    cases path other otherId with
    | error e => exact fun present => present
    | ok other =>
      intro present
      show ((s.files.write place stored.render).read? other).isSome = true
      rw [Files.read?_write_eq]
      split
      next => rfl
      next => exact present

theorem save_files {name : String} {d : Document} {description : Option String} {r : Except Failure StoredDocument}
    (done : (save owner name d description).out s = (r, after)) :
    Grows s after ∧ ∀ e, r = .error e → after.files = s.files := by
  unfold save at done
  have done := Act.out_bind_eq_of_ok tick_out done
  obtain ⟨e, failed, rfl⟩ | ⟨minted, mid, issued, done⟩ := Act.out_bind_eq done
  · cases failed
  · cases issued
    split at done
    next =>
      cases done
      exact ⟨.refl _, fun _ _ => rfl⟩
    next =>
      obtain ⟨e, failed, rfl⟩ | ⟨_, last, written, done⟩ := Act.out_bind_eq done
      · exact ⟨(put_files failed).1, fun _ _ => ((put_files failed).2 e rfl).1⟩
      · cases done
        exact ⟨(put_files written).1, nofun⟩

theorem fetch_refused {report : ErrorReport} (done : (fetch owner id).out s = (.error (.reported report), after)) :
    report.kind = .serialization ∧ s.IsUnreadable owner id := by
  unfold fetch at done
  obtain ⟨e, failed, same⟩ | ⟨place, mid, found, done⟩ := Act.out_bind_eq done
  · cases same
    obtain ⟨missing, -⟩ := Act.ofExcept_out failed
    exact absurd rfl (path_error missing report)
  · obtain ⟨named, rfl⟩ := Act.ofExcept_out found
    have done := Act.out_bind_eq_of_ok Act.out_get done
    split at done
    next => cases done
    next text file =>
      obtain ⟨e, failed, same⟩ | ⟨back, _, _, done⟩ := Act.out_bind_eq done
      · cases same
        obtain ⟨refused, -⟩ := Act.ofExcept_out failed
        unfold parse at refused
        cases parsed : StoredDocument.parse s.now text with
        | ok back =>
          rw [parsed] at refused
          cases refused
        | error count =>
          rw [parsed] at refused
          cases refused
          refine ⟨rfl, text, by rw [text?_of_path named, file], fun now back again => ?_⟩
          obtain ⟨other, again⟩ := StoredDocument.parse_eq_ok_at again s.now
          cases parsed.symm.trans again
      · cases done

/-- A change that fails changes no file. It is refused if there is no file, or if that is not read. -/
theorem update_files {changes : StoredChanges} {r : Except Failure StoredDocument}
    (done : (update owner id changes).out s = (r, after)) :
    Grows s after ∧ ∀ e, r = .error e → after.files = s.files ∧ ∀ report, e = .reported report →
      s.text? owner id = none ∨ report.kind = .serialization ∧ s.IsUnreadable owner id := by
  unfold update at done
  obtain ⟨e, failed, rfl⟩ | ⟨found, mid, fetched, rest⟩ := Act.out_bind_eq done
  · obtain ⟨rfl, -⟩ := fetch_out failed
    refine ⟨.refl _, fun e same => ⟨rfl, ?_⟩⟩
    rintro report rfl
    cases same
    exact .inr (fetch_refused failed)
  · obtain ⟨rfl, -⟩ := fetch_out fetched
    cases found with
    | none =>
      cases rest
      exact ⟨.refl _, fun _ _ => ⟨rfl, fun _ _ => .inl (text?_of_fetch_none fetched)⟩⟩
    | some back =>
      have written := Act.out_bind_eq_of_ok tick_out rest
      obtain ⟨e, failed, rfl⟩ | ⟨_, last, written, done⟩ := Act.out_bind_eq written
      · obtain ⟨grows, kept⟩ := put_files failed
        obtain ⟨same, unnamed⟩ := kept e rfl
        refine ⟨grows, fun _ other => ⟨same, fun report reported => ?_⟩⟩
        cases other
        exact absurd reported (unnamed report)
      · cases done
        exact ⟨(put_files written).1, nofun⟩

/-- Deleting fails only for an owner without a name. -/
theorem exists_delete (named : owner ≠ "") (id : String) (s : Store) :
    ∃ deleted after, (delete owner id).out s = (.ok deleted, after) := by
  have found : (Act.ofExcept (path owner id) : Act Store Path).out s = (.ok (place owner id), s) := by
    rw [Act.out_ofExcept, path_eq named]
  unfold delete
  rw [Act.out_bind_of_ok found, Act.out_bind_of_ok Act.out_get]
  cases s.files.read? (place owner id) with
  | none => exact ⟨_, _, rfl⟩
  | some text => exact ⟨_, _, rfl⟩

/-- Only the file of the flowchart is deleted, if it is there. -/
theorem delete_files {r : Except Failure Bool} (done : (delete owner id).out s = (r, after)) :
    (∀ other otherId, ¬(other = owner ∧ otherId = id) → after.text? other otherId = s.text? other otherId) ∧
      (r ≠ .ok true → after = s) := by
  unfold delete at done
  obtain ⟨e, failed, rfl⟩ | ⟨place, mid, found, done⟩ := Act.out_bind_eq done
  · obtain ⟨-, rfl⟩ := Act.ofExcept_out failed
    exact ⟨fun _ _ _ => rfl, fun _ => rfl⟩
  · obtain ⟨named, rfl⟩ := Act.ofExcept_out found
    have done := Act.out_bind_eq_of_ok Act.out_get done
    split at done
    next =>
      cases done
      exact ⟨fun _ _ _ => rfl, fun _ => rfl⟩
    next =>
      cases done
      exact ⟨fun _ _ apart => text?_erase_of_ne named apart, fun other => absurd rfl other⟩

end Store

end Flowchart
