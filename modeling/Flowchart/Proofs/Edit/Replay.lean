import Flowchart.Proofs.Edit.BatchRun

/-!
# Recorded batches

* `Operation.applyTo_recorded`: an operation as it is recorded does again what it has done.
* `applyExpanded_recorded`: so do the recorded operations of a batch. When they are expanded again, no node
  has connections left that would have to be removed before it.
* `applyBatch_replay`: a batch is made again from its record.
-/

namespace Flowchart

variable {catalog : Catalog} {e after : Editor} {operation recorded : Operation}

/-- The indices of an editor are exact, and no two of its connections share an id. -/
structure Editor.Keyed (e : Editor) : Prop where
  indexed : e.Indexed
  connectionIds : (e.document.connections.items.map Connection.id).Nodup

theorem Operation.Effect.connectionIds {d after : Document}
    (effect : Effect catalog d operation after recorded)
    (distinct : (d.connections.items.map Connection.id).Nodup) :
    (after.connections.items.map Connection.id).Nodup := by
  cases effect with
  | addConnection _ _ _ _ _ _ _ fresh =>
    simpa [Collection.edit, List.nodup_append] using ⟨distinct, by simpa using fresh⟩
  | removeConnection => exact distinct.sublist ((List.eraseIdx_sublist ..).map Connection.id)
  | _ => exact distinct

theorem Operation.keyed_applyTo (keyed : e.Keyed)
    (applied : operation.applyTo catalog e = .ok (after, recorded)) : after.Keyed := by
  obtain ⟨effect, indexed⟩ := effect_of_applyTo keyed.indexed applied
  exact ⟨indexed, effect.connectionIds keyed.connectionIds⟩

theorem BatchState.Step.keyed {s t : BatchState} (step : Step catalog s t) (keyed : s.editor.Keyed) :
    t.editor.Keyed := by
  cases step with
  | expand => exact keyed
  | apply applied => exact Operation.keyed_applyTo keyed applied

theorem BatchState.Reaches.keyed {s t : BatchState} (reaches : Reaches catalog s t)
    (keyed : s.editor.Keyed) : t.editor.Keyed := by
  induction reaches with
  | refl => exact keyed
  | tail _ step ih => exact step.keyed ih

/-! ### One operation -/

/-- A connection is made again under the id and of the class that it has got. -/
theorem Editor.addConnection_again (indexed : e.Indexed) {source target : End} {slot : Slot Link}
    {given : Option String} {c : Connection}
    (edited : e.addConnection source target (.ofSlot slot) given = .ok (after, c)) :
    e.addConnection source target (.chosen c.link) (some c.id) = .ok (after, c) := by
  obtain ⟨producer, produces, edited⟩ := bind_eq_ok_iff.mp edited
  obtain ⟨consumer, consumes, edited⟩ := bind_eq_ok_iff.mp edited
  obtain ⟨link, resolved⟩ : ∃ link, (LinkChoice.ofSlot slot).resolve producer.kind =
      (link, link.name) := by
    cases slot <;> exact ⟨_, rfl⟩
  simp only [resolved] at edited
  obtain ⟨_, checked, edited⟩ := bind_eq_ok_iff.mp edited
  obtain ⟨id, chosen, edited⟩ := bind_eq_ok_iff.mp edited
  cases made : makeConnection id source target link.name with
  | bad issues =>
    simp only [made] at edited
    cases edited
  | ok made' =>
    simp only [made] at edited
    cases edited
    obtain ⟨rfl, -⟩ := makeConnection_eq_ok made
    -- whether it was given or not, the id was free
    have free : ¬e.hasConnection id = true := by
      rw [indexed.hasConnection_iff]
      exact chooseId_eq_ok indexed chosen
    have again : e.chooseId source target (some id) = .ok id := if_neg free
    simp only [addConnection, produces, consumes, LinkChoice.resolve, checked, again, made, bind,
      Except.bind, pure, Except.pure]

namespace Operation

/-- Operations other than connecting are recorded as they are. -/
theorem Effect.recorded_eq {d after : Document} (effect : Effect catalog d operation after recorded)
    (other : ∀ j, operation ≠ .addConnection j) : recorded = operation := by
  cases effect with
  | addConnection => exact absurd rfl (other _)
  | _ => rfl

theorem applyTo_recorded (indexed : e.Indexed)
    (applied : operation.applyTo catalog e = .ok (after, recorded)) :
    recorded.applyTo catalog e = .ok (after, recorded) := by
  by_cases joins : ∃ j, operation = .addConnection j
  · obtain ⟨j, rfl⟩ := joins
    obtain ⟨⟨edited, c⟩, added, same⟩ := map_eq_ok_iff.mp applied
    cases same
    exact map_eq_ok_iff.mpr ⟨_, Editor.addConnection_again indexed added, rfl⟩
  · have same := (effect_of_applyTo indexed applied).1.recorded_eq (not_exists.mp joins)
    rw [same] at applied ⊢
    exact applied

/-- If an operation stands for itself, so does its record. -/
theorem Effect.expand_recorded {d after : Document} (effect : Effect catalog d operation after recorded)
    (alone : operation.expand e = [operation]) : recorded.expand e = [recorded] := by
  cases effect with
  | addConnection => rfl
  | _ => exact alone

end Operation

/-! ### Several operations -/

/-- An operation that stands for itself is applied as it stands. -/
theorem applyExpanded_single (alone : operation.expand e = [operation])
    (applied : operation.applyTo catalog e = .ok (after, recorded)) :
    applyExpanded catalog e [operation] = .ok (after, [recorded]) := by
  refine BatchState.applyExpanded_cons_eq_ok_iff.mpr ⟨after, [recorded], [], ?_, rfl, rfl⟩
  rw [alone]
  exact BatchState.applyAll_cons_eq_ok_iff.mpr ⟨after, recorded, [], applied, rfl, rfl⟩

/-- What is applied after other operations is applied to the working copy that they leave. -/
theorem applyExpanded_append_eq {next : Editor} {first second applied : List Operation}
    (before : applyExpanded catalog e first = .ok (next, applied)) :
    applyExpanded catalog e (first ++ second) =
      (applyExpanded catalog next second).map fun (after, others) => (after, applied ++ others) := by
  induction first generalizing e applied with
  | nil =>
    cases before
    rw [List.nil_append]
    cases applyExpanded catalog next second with
    | ok done => rfl
    | error error => rfl
  | cons operation first ih =>
    obtain ⟨middle, recorded, more, here, there, rfl⟩ :=
      BatchState.applyExpanded_cons_eq_ok_iff.mp before
    rw [List.cons_append, applyExpanded, here]
    simp only [bind, Except.bind, ih there]
    cases applyExpanded catalog next second with
    | ok done => simp only [Except.map, pure, Except.pure, List.append_assoc]
    | error error => rfl

theorem applyExpanded_append {next : Editor} {first second applied others : List Operation}
    (before : applyExpanded catalog e first = .ok (next, applied))
    (rest : applyExpanded catalog next second = .ok (after, others)) :
    applyExpanded catalog e (first ++ second) = .ok (after, applied ++ others) := by
  rw [applyExpanded_append_eq before, rest, Except.map]

/-- The removal of a node is made again from its record: the connections go one by one, and none is left
when the turn of the node comes. -/
theorem applyExpanded_removal {node : String} {connections : List Connection} {applied : List Operation}
    (keyed : e.Keyed) (incident : e.document.incident node = connections)
    (done : applyAll catalog e (BatchState.removal e.document node) = .ok (after, applied)) :
    applyExpanded catalog e applied = .ok (after, applied) := by
  induction connections generalizing e applied with
  | nil =>
    simp only [BatchState.removal, incident, List.map_nil, List.nil_append] at done
    obtain ⟨next, recorded, others, first, second, rfl⟩ := BatchState.applyAll_cons_eq_ok_iff.mp done
    cases second
    obtain rfl := (Operation.effect_of_applyTo keyed.indexed first).1.recorded_eq fun _ same => by cases same
    have alone : (Operation.removeNode node).expand e = [.removeNode node] := by
      simp [Operation.expand, incident]
    exact applyExpanded_single alone first
  | cons c connections ih =>
    simp only [BatchState.removal, incident, List.map_cons, List.cons_append] at done
    obtain ⟨next, recorded, others, first, second, rfl⟩ := BatchState.applyAll_cons_eq_ok_iff.mp done
    have effect := (Operation.effect_of_applyTo keyed.indexed first).1
    obtain rfl := effect.recorded_eq fun _ same => by cases same
    have left : next.document.incident node = connections := by
      generalize next.document = document at effect
      cases effect with
      | changeNode changes => cases changes
      | removeConnection present same =>
        exact BatchState.removal_tail keyed.connectionIds incident present same
    have second : applyAll catalog next (BatchState.removal next.document node) = .ok (after, others) := by
      simpa only [BatchState.removal, left] using second
    exact applyExpanded_append (applyExpanded_single rfl first)
      (ih (Operation.keyed_applyTo keyed first) left second)

/-- What one operation stands for is made again from its record. -/
theorem applyExpanded_expand {applied : List Operation} (keyed : e.Keyed)
    (done : applyAll catalog e (operation.expand e) = .ok (after, applied)) :
    applyExpanded catalog e applied = .ok (after, applied) := by
  by_cases removes : ∃ node, operation = .removeNode node ∧ e.hasNode node = true
  · obtain ⟨node, rfl, known⟩ := removes
    have whole : (Operation.removeNode node).expand e = BatchState.removal e.document node := if_pos known
    rw [whole] at done
    exact applyExpanded_removal keyed rfl done
  · have alone : operation.expand e = [operation] := by
      unfold Operation.expand
      split
      next node => exact if_neg fun known => removes ⟨node, rfl, known⟩
      next => rfl
    rw [alone] at done
    obtain ⟨next, recorded, others, first, second, rfl⟩ := BatchState.applyAll_cons_eq_ok_iff.mp done
    cases second
    have effect := (Operation.effect_of_applyTo keyed.indexed first).1
    exact applyExpanded_single (effect.expand_recorded alone)
      (Operation.applyTo_recorded keyed.indexed first)

theorem applyExpanded_recorded {operations applied : List Operation} (keyed : e.Keyed)
    (done : applyExpanded catalog e operations = .ok (after, applied)) :
    applyExpanded catalog e applied = .ok (after, applied) := by
  induction operations generalizing e applied with
  | nil =>
    cases done
    rfl
  | cons operation rest ih =>
    obtain ⟨next, recorded, others, first, second, rfl⟩ :=
      BatchState.applyExpanded_cons_eq_ok_iff.mp done
    have reaches : BatchState.Reaches catalog ⟨e, _, []⟩ ⟨next, [], []⟩ :=
      BatchState.reaches_of_applyAll first
    exact applyExpanded_append (applyExpanded_expand keyed first) (ih (reaches.keyed keyed) second)

/-! ### Batches -/

theorem keyed_ofDocument {d : Document} (distinct : (d.connections.items.map Connection.id).Nodup) :
    (Editor.ofDocument d).Keyed :=
  ⟨Editor.indexed_ofDocument d, distinct⟩

/-- A batch that is made again from its record comes to the same. -/
theorem applyBatch_replay {annotates : Bool} {d : Document} {operations : List Operation} {o : Outcome}
    (distinct : (d.connections.items.map Connection.id).Nodup)
    (done : applyBatch catalog annotates d operations = .ok o) :
    applyBatch catalog annotates d o.applied = .ok o := by
  have recorded := done
  obtain ⟨e, applied, expanded, -, same, -⟩ := applyBatch_eq_ok done
  have again := applyExpanded_recorded (keyed_ofDocument distinct) expanded
  rw [← same] at expanded again
  simpa only [applyBatch, expanded, again] using recorded

/-- Connections keep distinct ids through a batch. -/
theorem applyBatch_connectionIds {annotates : Bool} {d : Document} {operations : List Operation}
    {o : Outcome} (distinct : (d.connections.items.map Connection.id).Nodup)
    (done : applyBatch catalog annotates d operations = .ok o) :
    (o.document.connections.items.map Connection.id).Nodup := by
  obtain ⟨e, applied, expanded, -, -, -, document⟩ := applyBatch_eq_ok done
  have reaches := BatchState.reaches_of_applyExpanded expanded
  have ids := (reaches.keyed (keyed_ofDocument distinct)).connectionIds
  rw [document]
  split
  next =>
    -- findings are written to nodes only
    split
    next => exact ids
    next => exact ids
  next => exact distinct

end Flowchart
