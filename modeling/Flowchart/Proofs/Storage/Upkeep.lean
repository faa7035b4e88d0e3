import Flowchart.Proofs.Document.Respelling
import Flowchart.Proofs.Edit.Soundness
import Flowchart.Proofs.Storage.Calls

/-!
# What is kept in the store

* `Act.Keeps`: an action keeps an invariant whether it succeeds or fails, and what it comes to has a property.
* `Document.Storable`: the flowcharts that may be stored; they have no errors, nor have they when they are read
  back. Reading, batches and the store itself yield such flowcharts only.
* `Store.Clean`: every file holds such a flowchart. The calls of the store keep it so.
-/

namespace Flowchart

/-! ### Invariants of actions -/

namespace Act

variable {σ α β : Type} {P : σ → Prop} {Q : α → Prop} {R : β → Prop}

/-- Whether the action succeeds or fails, the invariant `P` holds after it if it held before; and if it
succeeds, `Q` holds of what it comes to. -/
def Keeps (P : σ → Prop) (Q : α → Prop) (act : Act σ α) : Prop :=
  ∀ s, P s → P (act.out s).2 ∧ ∀ a, (act.out s).1 = .ok a → Q a

theorem Keeps.of_out {act : Act σ α}
    (each : ∀ s r after, P s → act.out s = (r, after) → P after ∧ ∀ a, r = .ok a → Q a) : act.Keeps P Q :=
  fun s holds => each s _ _ holds rfl

theorem Keeps.out {act : Act σ α} (keeps : act.Keeps P Q) {s after : σ} {r : Except Failure α} (holds : P s)
    (done : act.out s = (r, after)) : P after ∧ ∀ a, r = .ok a → Q a := by
  have kept := keeps s holds
  rwa [done] at kept

theorem Keeps.bind {act : Act σ α} {next : α → Act σ β} (first : act.Keeps P Q)
    (rest : ∀ a, Q a → (next a).Keeps P R) : (act >>= next).Keeps P R := by
  refine .of_out fun s r after holds done => ?_
  obtain ⟨e, failed, rfl⟩ | ⟨a, mid, made, done⟩ := out_bind_eq done
  · exact ⟨(first.out holds failed).1, nofun⟩
  · obtain ⟨kept, made⟩ := first.out holds made
    exact (rest a (made a rfl)).out kept done

theorem keeps_pure {a : α} (made : Q a) : (pure a : Act σ α).Keeps P Q := by
  refine fun s holds => ⟨holds, fun b same => ?_⟩
  cases same
  exact made

theorem keeps_throw {e : Failure} : (throw e : Act σ α).Keeps P Q := fun _ holds => ⟨holds, nofun⟩

theorem keeps_get : (get : Act σ σ).Keeps P P := by
  refine fun s holds => ⟨holds, fun other same => ?_⟩
  cases same
  exact holds

theorem keeps_set {s : σ} (holds : P s) : (set s : Act σ PUnit).Keeps P fun _ => True :=
  fun _ _ => ⟨holds, fun _ _ => trivial⟩

theorem keeps_modify {f : σ → σ} (kept : ∀ s, P s → P (f s)) :
    (modify f : Act σ PUnit).Keeps P fun _ => True := fun s holds => ⟨kept s holds, fun _ _ => trivial⟩

theorem keeps_ofExcept {x : Except Failure α} (made : ∀ a, x = .ok a → Q a) :
    (Act.ofExcept x : Act σ α).Keeps P Q := fun _ holds => ⟨holds, made⟩

end Act

/-! ### Flowcharts that may be stored -/

theorem Collection.reread_sublist (c : Collection α) : c.reread.items.Sublist c.items := by
  obtain ⟨items, given⟩ := c
  cases given with
  | false => exact List.nil_sublist items
  | true => exact .refl items

namespace Document

/-- The flowchart has no errors, and its nodes are read back as they are. -/
structure Storable (d : Document) : Prop where
  sound : d.Sound
  wellFormed : d.WellFormed
  nodes : d.nodes.reread.items = d.nodes.items

/-- A list that is read back empty does no harm, unless it is that of the nodes. -/
theorem WellFormed.reread {d : Document} (wellFormed : d.WellFormed)
    (nodes : d.nodes.reread.items = d.nodes.items) : d.reread.WellFormed := by
  have sameNodes : WellFormed { d with nodes := d.nodes.reread } := wellFormed.mapNodes (congrArg _ nodes)
  have fewer : WellFormed { d with nodes := d.nodes.reread, connections := d.connections.reread } :=
    sameNodes.dropConnections d.connections.reread_sublist
  have vars := d.vars.reread_sublist
  exact (fewer.setVariables (wellFormed.variableIds.sublist (vars.map _))
    (wellFormed.variableNames.sublist (vars.map _))).setComments
      (wellFormed.commentIds.sublist (d.comments.reread_sublist.map _))

theorem Storable.reread {d : Document} (storable : d.Storable) : d.reread.Storable :=
  ⟨storable.sound.reread, storable.wellFormed.reread storable.nodes, rfl⟩

/-- The lists of a flowchart that was read are read back as they are. -/
theorem nodes_reread_of_check {v : Json} {d : Document} (checked : Document.check v = .ok d) :
    d.nodes.reread.items = d.nodes.items := by
  obtain ⟨fields, rfl, built⟩ := Check.entity_eq_ok checked
  simp only [Checked.seq_eq_ok, Checked.map_eq_ok] at built
  obtain ⟨_, _, ⟨_, _, ⟨_, _, ⟨_, _, ⟨_, ⟨nodes, -, rfl⟩, rfl⟩, -, rfl⟩, -, rfl⟩, -, rfl⟩, -, rfl⟩ := built
  cases nodes <;> rfl

/-- A flowchart that was read may be stored if it has no errors. -/
theorem storable_of_read {payload : Payload} (distinct : payload.DistinctKeys) {d : Document}
    (read : Document.read payload = .ok d) (wellFormed : d.WellFormed) : d.Storable := by
  obtain ⟨_, -, checked⟩ := read_eq_ok read
  exact ⟨sound_of_read distinct read, wellFormed, nodes_reread_of_check checked⟩

end Document

/-- Findings do not count for whether a flowchart has errors. -/
theorem annotate_wellFormed (r : Report) {d : Document} (wellFormed : d.WellFormed) :
    (annotate r d).WellFormed := by
  refine wellFormed.mapNodes ?_
  have same (node : Node) : (annotateNode r node).outline = node.outline := by
    unfold annotateNode
    dsimp only
    split
    · split <;> rfl
    · rfl
  simp only [Collection.of, List.map_map]
  exact List.map_congr_left fun node _ => same node

/-- What comes of a batch that is committed may be stored. -/
theorem applyBatch_storable {catalog : Catalog} (templates : catalog.Sound) {d : Document} (sound : d.Sound)
    {operations : List Operation} (each : ∀ operation ∈ operations, operation.Sound) {o : Outcome}
    (done : applyBatch catalog true d operations = .ok o) (committed : o.committed = true) :
    o.document.Storable := by
  have soundAfter := applyBatch_sound templates sound each done
  obtain ⟨e, applied, -, report, -, verdict, document⟩ := applyBatch_eq_ok done
  rw [if_pos committed, if_pos rfl] at document
  have clean : (validate catalog e.document).hasErrors = false := by
    rw [committed, report] at verdict
    simpa using verdict.symm
  -- the verdict is about the flowchart before its findings were noted on the nodes
  refine ⟨soundAfter, ?_, by rw [document]; rfl⟩
  rw [document]
  exact annotate_wellFormed _ ((validate_hasErrors_eq_false_iff catalog _).1 clean)

/-! ### The store -/

/-- What is read is the text of a file. -/
theorem Files.mem_of_read? {files : Files} {path : Path} {text : String} (file : files.read? path = some text) :
    (path.normal, text) ∈ files := by
  obtain ⟨before, rest, split, -⟩ := List.lookup_eq_some_iff.1 file
  exact split ▸ List.mem_append_right _ List.mem_cons_self

/-- A write makes one file, and leaves the others as they are. -/
theorem Files.mem_write {files : Files} {path : Path} {text : String} {file : Path × String}
    (mem : file ∈ files.write path text) : file ∈ files ∨ file = (path.normal, text) := by
  unfold write at mem
  split at mem
  · obtain ⟨old, held, rfl⟩ := List.mem_map.1 mem
    split
    next here => exact .inr (by rw [here])
    next => exact .inl held
  · exact (List.mem_append.1 mem).imp_right List.mem_singleton.1

theorem Files.forall_mem_write {P : String → Prop} {files : Files} (each : ∀ file ∈ files, P file.2)
    {text : String} (new : P text) (path : Path) : ∀ file ∈ files.write path text, P file.2 := by
  intro file mem
  rcases mem_write mem with old | rfl
  · exact each file old
  · exact new

namespace Store

/-- The text was written for a flowchart that may be stored. -/
def IsClean (text : String) : Prop :=
  ∃ stored : StoredDocument, text = stored.render ∧ stored.document.Storable

/-- Every file holds a flowchart that may be stored. -/
def Clean (s : Store) : Prop := ∀ file ∈ s.files, IsClean file.2

theorem clean_of_empty {s : Store} (empty : s.files = []) : s.Clean := fun file mem => by
  rw [empty] at mem
  cases mem

/-- What is read from a file may be stored again. -/
theorem Clean.storable {s : Store} (clean : s.Clean) {owner id : String} {back : StoredDocument}
    (holds : s.Holds owner id back) : back.document.Storable := by
  obtain ⟨text, file, parsed⟩ := holds
  unfold text? at file
  split at file
  next place _ =>
    obtain ⟨stored, rfl, storable⟩ := clean _ (Files.mem_of_read? file)
    obtain ⟨-, -, -, -, same⟩ := StoredDocument.eq_of_parse_render storable.sound parsed
    -- the file was written for a flowchart, and read back it may lack lists that were never given
    exact same ▸ storable.reread
  next => cases file

theorem fetch_keeps (owner id : String) :
    (fetch owner id).Keeps Clean fun found => ∀ back, found = some back → back.document.Storable := by
  refine .of_out fun s r after clean done => ?_
  obtain ⟨rfl, read⟩ := fetch_out done
  refine ⟨clean, ?_⟩
  rintro _ rfl back rfl
  exact clean.storable read

theorem tick_keeps : tick.Keeps Clean fun _ => True := fun _ clean => ⟨clean, fun _ _ => trivial⟩

theorem issue_keeps : issue.Keeps Clean fun _ => True := fun _ clean => ⟨clean, fun _ _ => trivial⟩

theorem put_keeps {stored : StoredDocument} (storable : stored.document.Storable) :
    (put stored).Keeps Clean fun _ => True := by
  refine .bind (Act.keeps_ofExcept (Q := fun _ => True) fun _ _ => trivial) fun path _ => ?_
  have new : IsClean stored.render := ⟨stored, rfl, storable⟩
  exact Act.keeps_modify fun s clean => Files.forall_mem_write clean new path

theorem save_keeps (owner name : String) {d : Document} (storable : d.Storable) (description : Option String) :
    (save owner name d description).Keeps Clean fun _ => True := by
  refine .bind tick_keeps fun now _ => .bind issue_keeps fun id _ => ?_
  split
  next => exact Act.keeps_throw
  next =>
    refine .bind (put_keeps ?_) fun _ _ => Act.keeps_pure trivial
    exact storable

theorem update_keeps (owner id : String) {changes : StoredChanges}
    (storable : ∀ d, changes.document = some d → d.Storable) :
    (update owner id changes).Keeps Clean fun _ => True := by
  refine .bind (fetch_keeps owner id) fun found read => ?_
  split
  next => exact Act.keeps_throw
  next back =>
    refine .bind tick_keeps fun now _ => .bind (put_keeps ?_) fun _ _ => Act.keeps_pure trivial
    show (changes.document.getD back.document).Storable
    cases given : changes.document with
    | none => exact read back rfl
    | some d => exact storable d given

theorem delete_keeps (owner id : String) : (delete owner id).Keeps Clean fun _ => True := by
  refine .bind (Act.keeps_ofExcept (Q := fun _ => True) fun _ _ => trivial) fun path _ => ?_
  refine .bind Act.keeps_get fun s clean => ?_
  split
  next => exact Act.keeps_pure trivial
  next =>
    refine .bind (Act.keeps_set ?_) fun _ _ => Act.keeps_pure trivial
    exact fun file mem => clean file (List.mem_of_mem_filter mem)

end Store

end Flowchart
