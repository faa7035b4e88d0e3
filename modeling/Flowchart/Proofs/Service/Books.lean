import Flowchart.Proofs.Assistant.Turns
import Flowchart.Proofs.Storage.StoredText
import Flowchart.Service.Event

/-!
# The books of a stored flowchart

* `Slice`: what a service holds of one flowchart: its file and its sessions.
* `Ticket`: a version that was made in a session by a turn and is still to be written back.
* `Books`: what was written to the file, and on which versions the accepted changes were based.
* `InStep`: the invariant that ties the three together. The lemmas of `InStep` say that it is kept when a
  session is opened or goes on, when a version is written back, is overtaken or is lost, when the flowchart is
  replaced, renamed or deleted, and when the service starts again.
-/

namespace Flowchart

/-- What a service holds of one flowchart: the text of its file, the number of its open session, and the
timelines of all sessions that were opened. The clock is read whenever a file is written. -/
structure Slice where
  text? : Option String
  readings : Nat
  live? : Option Nat
  timeline? : Nat → Option Timeline
  opened : Nat

namespace Slice

/-- Whether the file can be read as a stored flowchart. -/
def Readable (v : Slice) : Prop :=
  ∃ text now back, v.text? = some text ∧ StoredDocument.parse now text = .ok back

/-- The open session has a number and a timeline. -/
def Live (v : Slice) (n : Nat) (t : Timeline) : Prop := v.live? = some n ∧ v.timeline? n = some t

theorem Live.unique {v : Slice} {n m : Nat} {t u : Timeline} (live : v.Live n t) (other : v.Live m u) :
    n = m ∧ t = u := by
  obtain ⟨number, timeline⟩ := live
  obtain ⟨sameNumber, sameTimeline⟩ := other
  cases number.symm.trans sameNumber
  cases timeline.symm.trans sameTimeline
  exact ⟨rfl, rfl⟩

/-- Opens a session with a timeline. -/
def enter (v : Slice) (t : Timeline) : Slice :=
  { v with
    live? := some v.opened
    timeline? := fun n => if n = v.opened then some t else v.timeline? n
    opened := v.opened + 1 }

/-- Puts a timeline in the place of the one of a session. -/
def advance (v : Slice) (n : Nat) (t : Timeline) : Slice :=
  { v with timeline? := fun m => if m = n then some t else v.timeline? m }

def write (v : Slice) (text : String) : Slice := { v with text? := some text, readings := v.readings + 1 }

def close (v : Slice) : Slice := { v with live? := none }

/-- Removes the file and closes the session. -/
def erase (v : Slice) : Slice := { v with text? := none, live? := none }

/-- What is left after the service starts again. -/
def restart (v : Slice) : Slice := ⟨v.text?, v.readings, none, fun _ => none, 0⟩

end Slice

/-- A version that a turn made in a session: the number of the session, the version that it is based on,
and its flowchart. -/
structure Ticket where
  serial : Nat
  base : Nat
  document : Document

/-- A change that was accepted: the version it is based on, and whether it was written to the file. -/
structure Accepted where
  base : Int
  written : Bool

/-- What was written to the file together with a flowchart, and the changes that were accepted, the latest
first. Changes are lost if the service starts again while the file is older than they are. -/
structure Books where
  writes : List (Int × Document)
  accepted : List Accepted := []
  lost : Bool := false

namespace Books

/-- Whether a change was accepted that is newer than what was written last. -/
def behind (b : Books) : Bool :=
  b.accepted.any fun a => b.writes.head?.any fun last => last.1 ≤ a.base

theorem behind_eq_false {b : Books} {last : Int × Document} (newest : b.writes.head? = some last)
    (ahead : b.behind = false) : ∀ a ∈ b.accepted, a.base < last.1 := by
  simpa [behind, newest] using ahead

/-- Notes what a call has written and accepted. -/
def note (b : Books) (write : Option (Int × Document)) (base : Option Int) : Books :=
  { b with
    writes := write.toList ++ b.writes
    accepted := (base.map fun base => ⟨base, write.isSome⟩).toList ++ b.accepted }

variable {b : Books} {write : Option (Int × Document)} {base : Option Int} {a : Accepted}

theorem mem_accepted_note :
    a ∈ (b.note write base).accepted ↔ base = some a.base ∧ a.written = write.isSome ∨ a ∈ b.accepted := by
  cases base with
  | none => simp [note]
  | some n =>
    obtain ⟨m, written⟩ := a
    simp [note, eq_comm]

/-- A change that is based on a version of its own may be accepted. -/
theorem nodup_note (distinct : (b.accepted.map Accepted.base).Nodup)
    (apart : ∀ a ∈ b.accepted, base ≠ some a.base) :
    ((b.note write base).accepted.map Accepted.base).Nodup := by
  cases base with
  | none => exact distinct
  | some n =>
    refine List.nodup_cons.2 ⟨fun mem => ?_, distinct⟩
    obtain ⟨a, mem, same⟩ := List.mem_map.1 mem
    exact apart a mem (congrArg some same.symm)

/-- A change that is based on a version of its own among those that were written may be written. -/
theorem nodup_written_note {write : Int × Document}
    (distinct : ((b.accepted.filter Accepted.written).map Accepted.base).Nodup)
    (apart : ∀ a ∈ b.accepted, a.written = true → base ≠ some a.base) :
    (((b.note (some write) base).accepted.filter Accepted.written).map Accepted.base).Nodup := by
  cases base with
  | none => exact distinct
  | some n =>
    refine List.nodup_cons.2 ⟨fun mem => ?_, distinct⟩
    obtain ⟨a, mem, same⟩ := List.mem_map.1 mem
    obtain ⟨mem, written⟩ := List.mem_filter.1 mem
    exact apart a mem written (congrArg some same.symm)

end Books

/-- A stored flowchart that is sound and bears the owner and the id of its file. -/
structure StoredDocument.FiledUnder (key : DocumentKey) (s : StoredDocument) : Prop where
  sound : s.document.Sound
  owner : s.ownerId = key.owner
  id : s.id = key.id

/-- The file, the sessions and the books are in step. `last` is what was written last. -/
structure InStep (key : DocumentKey) (v : Slice) (tickets : List Ticket) (books : Books)
    (last : Int × Document) : Prop where
  newest : books.writes.head? = some last
  increasing : books.writes.Pairwise fun later earlier => earlier.1 < later.1
  file : ∀ text, v.text? = some text → ∃ stored : StoredDocument, text = stored.render ∧
    stored.FiledUnder key ∧ last = (stored.version, stored.document.reread)
  held : ∀ n, v.live? = some n → ∃ t, v.timeline? n = some t
  numbered : ∀ n t, v.timeline? n = some t → n < v.opened ∧ t.current.Sound
  issued : ∀ τ ∈ tickets, τ.serial < v.opened
  /-- Versions that are still to be written back are not newer than the session. The newest of them is
  newer than the file. -/
  ticketed : ∀ n t, v.Live n t → ∀ τ ∈ tickets, τ.serial = n → τ.base < t.latest ∧
    (τ.base + 1 = t.latest → τ.document = t.current ∧ (v.Readable → last.1 < t.latest))
  distinct : ∀ n, v.live? = some n → ((tickets.filter (·.serial = n)).map Ticket.base).Nodup
  /-- The latest version of the session stands in the file or is still to be written back. -/
  synced : ∀ n t, v.Live n t → v.Readable →
    (∃ τ ∈ tickets, τ.serial = n ∧ τ.base + 1 = t.latest) ∨ last = (↑t.latest, t.current.reread)
  writtenDistinct : ((books.accepted.filter Accepted.written).map Accepted.base).Nodup
  writtenBelow : v.Readable → ∀ a ∈ books.accepted, a.written = true → a.base < last.1
  acceptedDistinct : books.lost = false → (books.accepted.map Accepted.base).Nodup
  acceptedBelow : books.lost = false → ∀ n t, v.Live n t → ∀ a ∈ books.accepted,
    a.base < t.latest ∧ ∀ τ ∈ tickets, τ.serial = n → a.base ≠ τ.base
  closedBelow : books.lost = false → v.live? = none → v.Readable → ∀ a ∈ books.accepted,
    a.base < last.1

namespace InStep

variable {key : DocumentKey} {v : Slice} {tickets others : List Ticket} {τ : Ticket} {books : Books}
  {last : Int × Document} {n : Nat} {t after : Timeline} {stored : StoredDocument}

/-- A session is never behind the file. -/
theorem le_latest (h : InStep key v tickets books last) (live : v.Live n t) (readable : v.Readable) :
    last.1 ≤ t.latest := by
  obtain ⟨τ, mem, serial, newest⟩ | same := h.synced n t live readable
  · exact (((h.ticketed n t live τ mem serial).2 newest).2 readable).le
  · rw [same]

/-- While nothing is still to be written back, an open session is at the version in the file. -/
theorem eq_latest (h : InStep key v [] books last) (live : v.Live n t) (readable : v.Readable) :
    last = (↑t.latest, t.current.reread) := by
  obtain ⟨τ, mem, -⟩ | same := h.synced n t live readable
  · cases mem
  · exact same

/-- While nothing is still to be written back, the file is newer than what accepted changes are based on. -/
theorem accepted_lt (h : InStep key v [] books last) (kept : books.lost = false) (readable : v.Readable) :
    ∀ a ∈ books.accepted, a.base < last.1 := by
  intro a mem
  cases number : v.live? with
  | none => exact h.closedBelow kept number readable a mem
  | some n =>
    obtain ⟨t, timeline⟩ := h.held n number
    have live : v.Live n t := ⟨number, timeline⟩
    rw [h.eq_latest live readable]
    exact (h.acceptedBelow kept n t live a mem).1

theorem perm (h : InStep key v tickets books last) (perm : tickets.Perm others) :
    InStep key v others books last :=
  { h with
    issued := fun τ mem => h.issued τ (perm.mem_iff.2 mem)
    ticketed := fun n t live τ mem => h.ticketed n t live τ (perm.mem_iff.2 mem)
    distinct := fun n live => ((perm.filter _).map _).nodup_iff.1 (h.distinct n live)
    synced := fun n t live readable => (h.synced n t live readable).imp_left fun ⟨τ, mem, rest⟩ =>
      ⟨τ, perm.mem_iff.1 mem, rest⟩
    acceptedBelow := fun kept n t live a mem => ⟨(h.acceptedBelow kept n t live a mem).1,
      fun τ ticket => (h.acceptedBelow kept n t live a mem).2 τ (perm.mem_iff.2 ticket)⟩ }

/-- Opens a session on what the file holds. No version of the new session is still to be written back. -/
theorem enter (h : InStep key v tickets books last) (closed : v.live? = none) {text : String}
    (file : v.text? = some text) {now : Timestamp} {back : StoredDocument}
    (parsed : StoredDocument.parse now text = .ok back) :
    InStep key (v.enter (.start back.document back.version.toNat)) tickets books last := by
  obtain ⟨stored, rfl, ⟨sound, -, -⟩, rfl⟩ := h.file text file
  obtain ⟨-, -, version, bound, document⟩ := StoredDocument.eq_of_parse_render sound parsed
  have readable : v.Readable := ⟨_, now, back, file, parsed⟩
  have number : ((back.version.toNat : Nat) : Int) = stored.version := by
    rw [version, Int.toNat_of_nonneg bound]
  have opened {n : Nat} {t : Timeline} (live : (v.enter (.start back.document back.version.toNat)).Live n t) :
      n = v.opened ∧ t = .start back.document back.version.toNat := by
    obtain ⟨number, timeline⟩ := live
    cases number
    simp only [Slice.enter, if_pos] at timeline
    exact ⟨rfl, (Option.some.inj timeline).symm⟩
  -- the number is new, so nothing of the session is to be written back
  have none_issued : ∀ τ ∈ tickets, τ.serial ≠ v.opened := fun τ mem => (h.issued τ mem).ne
  refine
    { h with
      held := ?_
      numbered := ?_
      issued := fun τ mem => (h.issued τ mem).trans (Nat.lt_succ_self _)
      ticketed := ?_
      distinct := ?_
      synced := ?_
      acceptedBelow := ?_
      closedBelow := ?_ }
  · rintro n ⟨rfl⟩
    exact ⟨_, if_pos rfl⟩
  · intro n t timeline
    simp only [Slice.enter] at timeline ⊢
    split at timeline
    next same =>
      cases timeline
      refine ⟨by omega, ?_⟩
      show back.document.Sound
      rw [document]
      exact sound.reread
    next other =>
      obtain ⟨bound, fine⟩ := h.numbered n t timeline
      exact ⟨by omega, fine⟩
  · intro n t live τ mem serial
    obtain ⟨rfl, -⟩ := opened live
    exact absurd serial (none_issued τ mem)
  · rintro n ⟨rfl⟩
    have empty : tickets.filter (·.serial = v.opened) = [] :=
      List.filter_eq_nil_iff.2 fun τ mem => by simpa using none_issued τ mem
    rw [empty]
    exact List.nodup_nil
  · intro n t live _
    obtain ⟨rfl, rfl⟩ := opened live
    -- the session starts from the file, and reading twice is reading once
    right
    simp only [Timeline.start, number, document, Document.reread_reread]
  · intro kept n t live a mem
    obtain ⟨rfl, rfl⟩ := opened live
    refine ⟨?_, fun τ ticket serial => absurd serial (none_issued τ ticket)⟩
    simpa only [Timeline.start, number] using h.closedBelow kept closed readable a mem
  · intro _ still
    cases still

/-- A session goes on by one version, which is still to be written back. -/
theorem advance (h : InStep key v tickets books last) {d : Document} (present : v.timeline? n = some t)
    (advances : t.Advances after d) (sound : d.Sound) :
    InStep key (v.advance n after) (⟨n, t.latest, d⟩ :: tickets) books last := by
  have latest := advances.latest
  -- the open session is this one, with its new version, or another one, which is as it was
  have lives {m : Nat} {u : Timeline} (live : (v.advance n after).Live m u) :
      m = n ∧ u = after ∧ v.Live n t ∨ m ≠ n ∧ v.Live m u := by
    obtain ⟨number, timeline⟩ := live
    simp only [Slice.advance] at number timeline
    split at timeline
    next same =>
      subst same
      cases timeline
      exact .inl ⟨rfl, rfl, number, present⟩
    next other => exact .inr ⟨other, number, timeline⟩
  refine
    { h with
      held := ?_
      numbered := ?_
      issued := List.forall_mem_cons.2 ⟨(h.numbered n t present).1, h.issued⟩
      ticketed := ?_
      distinct := ?_
      synced := ?_
      acceptedBelow := ?_ }
  · intro m live
    obtain ⟨u, timeline⟩ := h.held m live
    by_cases same : m = n
    · exact ⟨after, if_pos same⟩
    · exact ⟨u, (if_neg same).trans timeline⟩
  · intro m u timeline
    simp only [Slice.advance] at timeline
    split at timeline
    next same =>
      subst same
      cases timeline
      exact ⟨(h.numbered m t present).1, advances.current ▸ sound⟩
    next => exact h.numbered m u timeline
  · intro m u live τ mem serial
    obtain ⟨rfl, rfl, before⟩ | ⟨other, before⟩ := lives live
    · obtain rfl | mem := List.mem_cons.1 mem
      · refine ⟨by simp [latest], fun _ => ⟨advances.current.symm, fun readable => ?_⟩⟩
        -- the session was not behind the file, and it has just gone on
        have bound := h.le_latest before readable
        rw [latest]
        omega
      · have older := (h.ticketed m t before τ mem serial).1
        exact ⟨by omega, fun newest => by omega⟩
    · obtain rfl | mem := List.mem_cons.1 mem
      · exact absurd serial.symm other
      · exact h.ticketed m u before τ mem serial
  · intro m live
    rw [List.filter_cons]
    split
    next same =>
      have same : n = m := by simpa using same
      subst same
      refine List.nodup_cons.2 ⟨fun mem => ?_, h.distinct n live⟩
      -- every other version of the session is based on an older one
      obtain ⟨τ, mem, base⟩ := List.mem_map.1 mem
      obtain ⟨mem, serial⟩ := List.mem_filter.1 mem
      have older := (h.ticketed n t ⟨live, present⟩ τ mem (by simpa using serial)).1
      exact absurd base (by simpa using older.ne)
    next => exact h.distinct m live
  · intro m u live readable
    obtain ⟨rfl, rfl, -⟩ | ⟨-, before⟩ := lives live
    · exact .inl ⟨_, List.mem_cons_self, rfl, latest.symm⟩
    · refine (h.synced m u before readable).imp_left fun ⟨τ, mem, rest⟩ => ?_
      exact ⟨τ, List.mem_cons_of_mem _ mem, rest⟩
  · intro kept m u live a mem
    obtain ⟨rfl, rfl, before⟩ | ⟨other, before⟩ := lives live
    · obtain ⟨below, apart⟩ := h.acceptedBelow kept m t before a mem
      refine ⟨by omega, List.forall_mem_cons.2 ⟨fun _ => ?_, apart⟩⟩
      exact below.ne
    · obtain ⟨below, apart⟩ := h.acceptedBelow kept m u before a mem
      exact ⟨below, List.forall_mem_cons.2 ⟨fun serial => absurd serial.symm other, apart⟩⟩

/-- A version that is lost for the file is no longer to be written back: its session is closed, or the file
cannot be read. -/
theorem drop (h : InStep key v (τ :: tickets) books last)
    (lost : v.live? ≠ some τ.serial ∨ ¬v.Readable) : InStep key v tickets books last :=
  { h with
    issued := fun other mem => h.issued other (List.mem_cons_of_mem _ mem)
    ticketed := fun n t live other mem => h.ticketed n t live other (List.mem_cons_of_mem _ mem)
    distinct := fun n live =>
      (h.distinct n live).sublist (((List.sublist_cons_self τ tickets).filter _).map _)
    synced := by
      intro n t live readable
      refine (h.synced n t live readable).imp_left fun ⟨other, mem, serial, newest⟩ => ?_
      obtain rfl | mem := List.mem_cons.1 mem
      · obtain closed | unreadable := lost
        · exact absurd (serial ▸ live.1) closed
        · exact absurd readable unreadable
      · exact ⟨other, mem, serial, newest⟩
    acceptedBelow := fun kept n t live a mem => ⟨(h.acceptedBelow kept n t live a mem).1,
      fun other ticket =>
        (h.acceptedBelow kept n t live a mem).2 other (List.mem_cons_of_mem _ ticket)⟩ }

/-- Of the versions of a session that are still to be written back, no two are based on the same one. -/
theorem ticket_apart (h : InStep key v (τ :: tickets) books last) (live : v.Live τ.serial t) :
    ∀ other ∈ tickets, other.serial = τ.serial → other.base ≠ τ.base := by
  intro other mem serial same
  have distinct := h.distinct τ.serial live.1
  rw [List.filter_cons_of_pos (by simp), List.map_cons] at distinct
  refine (List.nodup_cons.1 distinct).1 (List.mem_map.2 ⟨other, ?_, same⟩)
  exact List.mem_filter.2 ⟨mem, by simpa using serial⟩

/-- A change that is still to be settled may be accepted: no other one is based on its version. -/
theorem settled_distinct (h : InStep key v (τ :: tickets) books last) (live : v.Live τ.serial t)
    (kept : books.lost = false) (w : Option (Int × Document)) :
    ((books.note w (some τ.base)).accepted.map Accepted.base).Nodup := by
  refine Books.nodup_note (h.acceptedDistinct kept) fun a mem same => ?_
  exact (h.acceptedBelow kept _ t live a mem).2 τ List.mem_cons_self rfl (Option.some.inj same).symm

/-- Once a change is settled, all that were accepted are older than the session, and apart from those that
are still to be settled. -/
theorem settled_below (h : InStep key v (τ :: tickets) books last) (live : v.Live τ.serial t)
    (kept : books.lost = false) {w : Option (Int × Document)} {a : Accepted}
    (mem : a ∈ (books.note w (some τ.base)).accepted) :
    a.base < t.latest ∧ ∀ ticket ∈ tickets, ticket.serial = τ.serial → a.base ≠ ticket.base := by
  obtain ⟨same, -⟩ | mem := Books.mem_accepted_note.1 mem
  · have same : a.base = τ.base := (Option.some.inj same).symm
    have older := (h.ticketed _ t live τ List.mem_cons_self rfl).1
    refine ⟨by omega, fun ticket mem serial other => ?_⟩
    exact h.ticket_apart live ticket mem serial (by omega)
  · obtain ⟨below, apart⟩ := h.acceptedBelow kept _ t live a mem
    exact ⟨below, fun ticket mem => apart ticket (List.mem_cons_of_mem _ mem)⟩

/-- A turn whose version was overtaken in its session is accepted, but not written. -/
theorem supersede (h : InStep key v (τ :: tickets) books last) (live : v.Live τ.serial t)
    (late : τ.base + 1 ≠ t.latest) :
    InStep key v tickets (books.note none (some τ.base)) last :=
  { h with
    issued := fun other mem => h.issued other (List.mem_cons_of_mem _ mem)
    ticketed := fun n t live other mem => h.ticketed n t live other (List.mem_cons_of_mem _ mem)
    distinct := fun n live =>
      (h.distinct n live).sublist (((List.sublist_cons_self τ tickets).filter _).map _)
    synced := by
      intro n u other readable
      obtain ⟨same, rfl⟩ := live.unique other
      refine (h.synced n t other readable).imp_left fun ⟨ticket, mem, serial, newest⟩ => ?_
      obtain rfl | mem := List.mem_cons.1 mem
      · exact absurd newest late
      · exact ⟨ticket, mem, serial, newest⟩
    writtenDistinct := h.writtenDistinct
    writtenBelow := fun readable => List.forall_mem_cons.2 ⟨nofun, h.writtenBelow readable⟩
    acceptedDistinct := fun kept => h.settled_distinct live kept none
    acceptedBelow := by
      intro kept n u other a mem
      obtain ⟨rfl, rfl⟩ := live.unique other
      exact h.settled_below live kept mem
    closedBelow := fun _ closed => by rw [live.1] at closed; cases closed }

/-- A newer version than the one in the file may be written. -/
theorem increasing_cons (h : InStep key v tickets books last) {w : Int × Document}
    (newer : last.1 < w.1) :
    (w :: books.writes).Pairwise fun later earlier => earlier.1 < later.1 := by
  refine List.pairwise_cons.2 ⟨fun earlier mem => ?_, h.increasing⟩
  have increasing := h.increasing
  have newest := h.newest
  cases writes : books.writes with
  | nil =>
    rw [writes] at mem
    cases mem
  | cons first rest =>
    rw [writes] at increasing newest mem
    cases newest
    obtain rfl | mem := List.mem_cons.1 mem
    · exact newer
    · exact ((List.pairwise_cons.1 increasing).1 earlier mem).trans newer

/-- The latest version of the open session is written back. -/
theorem write (h : InStep key v (τ :: tickets) books last) (live : v.Live τ.serial t)
    (newest : τ.base + 1 = t.latest) (readable : v.Readable) (filed : stored.FiledUnder key)
    (version : stored.version = t.latest) (document : stored.document = τ.document) :
    InStep key (v.write stored.render) tickets
      (books.note (some (stored.version, stored.document.reread)) (some τ.base))
      (stored.version, stored.document.reread) := by
  obtain ⟨-, same⟩ := h.ticketed _ t live τ List.mem_cons_self rfl
  obtain ⟨current, behind⟩ := same newest
  have behind := behind readable
  have base : (τ.base : Int) < stored.version := by omega
  refine
    { newest := rfl
      increasing := h.increasing_cons (by simpa only [version] using behind)
      file := ?_
      held := h.held
      numbered := h.numbered
      issued := fun other mem => h.issued other (List.mem_cons_of_mem _ mem)
      ticketed := ?_
      distinct := fun n live =>
        (h.distinct n live).sublist (((List.sublist_cons_self τ tickets).filter _).map _)
      synced := ?_
      writtenDistinct := ?_
      writtenBelow := ?_
      acceptedDistinct := fun kept => h.settled_distinct live kept _
      acceptedBelow := ?_
      closedBelow := fun _ closed => by rw [Slice.write, live.1] at closed; cases closed }
  · intro text file
    cases file
    exact ⟨stored, rfl, filed, rfl⟩
  · intro n u other ticket mem serial
    obtain ⟨rfl, rfl⟩ := live.unique other
    refine ⟨(h.ticketed _ t live ticket (List.mem_cons_of_mem _ mem) serial).1, fun again => ?_⟩
    -- only one version can be the newest
    exact absurd (by omega) (h.ticket_apart live ticket mem serial)
  · intro n u other _
    obtain ⟨rfl, rfl⟩ := live.unique other
    exact .inr (by rw [version, document, current])
  · -- what was written before is based on versions below the one that the file held
    refine Books.nodup_written_note h.writtenDistinct fun a mem written same => ?_
    have below := h.writtenBelow readable a mem written
    have same := Option.some.inj same
    omega
  · intro _ a mem written
    show a.base < stored.version
    obtain ⟨same, -⟩ | mem := Books.mem_accepted_note.1 mem
    · rw [← Option.some.inj same]
      exact base
    · have below := h.writtenBelow readable a mem written
      omega
  · intro kept n u other a mem
    obtain ⟨rfl, rfl⟩ := live.unique other
    exact h.settled_below live kept mem

/-- The number of the version that a change of the flowchart must be based on: the latest one of the open
session, or the one in the file if no session is open. -/
def IsLatest (v : Slice) (last : Int × Document) (latest : Int) : Prop :=
  (∃ n t, v.Live n t ∧ latest = t.latest) ∨ v.live? = none ∧ latest = last.1

/-- A flowchart takes the place of the one in the file, as the version after the latest, and the session is
closed. The change is accepted for the latest version if it names that. -/
theorem replace (h : InStep key v tickets books last) (readable : v.Readable) {latest : Int}
    (isLatest : IsLatest v last latest) (filed : stored.FiledUnder key)
    (version : stored.version = latest + 1) {base : Option Int} (named : ∀ b ∈ base, b = latest) :
    InStep key (v.write stored.render).close tickets
      (books.note (some (stored.version, stored.document.reread)) base)
      (stored.version, stored.document.reread) := by
  have bound : last.1 ≤ latest := by
    obtain ⟨n, t, live, rfl⟩ | ⟨-, rfl⟩ := isLatest
    · exact h.le_latest live readable
    · exact le_rfl
  have below (kept : books.lost = false) : ∀ a ∈ books.accepted, a.base < latest := by
    intro a mem
    obtain ⟨n, t, live, rfl⟩ | ⟨closed, rfl⟩ := isLatest
    · exact (h.acceptedBelow kept n t live a mem).1
    · exact h.closedBelow kept closed readable a mem
  -- with the session closed, what concerns open sessions holds of none
  have notLive {n : Nat} {t : Timeline} : ¬(v.write stored.render).close.Live n t := fun live => by
    cases live.1
  have written : ∀ a ∈ books.accepted, a.written = true → a.base < latest := fun a mem written =>
    (h.writtenBelow readable a mem written).trans_le bound
  refine
    { newest := rfl
      increasing := h.increasing_cons (by show last.1 < stored.version; omega)
      file := ?_
      held := fun _ live => by cases live
      numbered := h.numbered
      issued := h.issued
      ticketed := fun n t live => absurd live notLive
      distinct := fun _ live => by cases live
      synced := fun n t live => absurd live notLive
      writtenDistinct := ?_
      writtenBelow := ?_
      acceptedDistinct := ?_
      acceptedBelow := fun _ n t live => absurd live notLive
      closedBelow := ?_ }
  · intro text file
    cases file
    exact ⟨stored, rfl, filed, rfl⟩
  · refine Books.nodup_written_note h.writtenDistinct fun a mem flag same => ?_
    exact (written a mem flag).ne (named a.base same)
  · intro _ a mem flag
    show a.base < stored.version
    obtain ⟨same, -⟩ | mem := Books.mem_accepted_note.1 mem
    · have := named a.base same
      omega
    · have := written a mem flag
      omega
  · intro kept
    refine Books.nodup_note (h.acceptedDistinct kept) fun a mem same => ?_
    exact (below kept a mem).ne (named a.base same)
  · intro kept _ _ a mem
    show a.base < stored.version
    obtain ⟨same, -⟩ | mem := Books.mem_accepted_note.1 mem
    · have := named a.base same
      omega
    · have := below kept a mem
      omega

/-- The file is written anew with the version and the flowchart that it holds. -/
theorem rename (h : InStep key v tickets books last) (readable : v.Readable)
    (filed : stored.FiledUnder key) (same : last = (stored.version, stored.document.reread)) :
    InStep key (v.write stored.render) tickets books last :=
  { h with
    file := fun _ file => ⟨stored, (Option.some.inj file).symm, filed, same⟩
    ticketed := fun n t live τ mem serial =>
      ⟨(h.ticketed n t live τ mem serial).1, fun newest =>
        ⟨((h.ticketed n t live τ mem serial).2 newest).1,
          fun _ => ((h.ticketed n t live τ mem serial).2 newest).2 readable⟩⟩
    synced := fun n t live _ => h.synced n t live readable
    writtenBelow := fun _ => h.writtenBelow readable
    closedBelow := fun kept closed _ => h.closedBelow kept closed readable }

theorem not_readable_erase (v : Slice) : ¬v.erase.Readable := by
  rintro ⟨text, now, back, file, -⟩
  cases file

/-- The file is gone, and the session is closed. -/
theorem erase (h : InStep key v tickets books last) : InStep key v.erase tickets books last where
  newest := h.newest
  increasing := h.increasing
  file _ text := by cases text
  held _ live := by cases live
  numbered := h.numbered
  issued := h.issued
  ticketed _ _ live := by cases live.1
  distinct _ live := by cases live
  synced _ _ live := by cases live.1
  writtenDistinct := h.writtenDistinct
  writtenBelow readable := absurd readable (not_readable_erase v)
  acceptedDistinct := h.acceptedDistinct
  acceptedBelow _ _ _ live := by cases live.1
  closedBelow _ _ readable := absurd readable (not_readable_erase v)

/-- The service starts again with no session. A file that is not ahead of the accepted changes has lost
some of them. -/
theorem restart (h : InStep key v tickets books last) :
    InStep key v.restart [] { books with lost := books.lost || v.text?.isSome && books.behind } last where
  newest := h.newest
  increasing := h.increasing
  file := h.file
  held _ live := by cases live
  numbered _ _ timeline := by cases timeline
  issued _ mem := absurd mem List.not_mem_nil
  ticketed _ _ live := by cases live.1
  distinct _ live := by cases live
  synced _ _ live := by cases live.1
  writtenDistinct := h.writtenDistinct
  writtenBelow := h.writtenBelow
  acceptedDistinct kept := h.acceptedDistinct (Bool.or_eq_false_iff.1 kept).1
  acceptedBelow _ _ _ live := by cases live.1
  closedBelow kept _ readable := by
    obtain ⟨text, _, _, file, _⟩ := readable
    have ahead : books.behind = false := by
      simpa [show v.text? = some text from file] using (Bool.or_eq_false_iff.1 kept).2
    exact Books.behind_eq_false h.newest ahead

/-- A flowchart was saved, and nothing was done with it yet. -/
theorem saved (filed : stored.FiledUnder key) (readings : Nat) :
    InStep key ⟨some stored.render, readings, none, fun _ => none, 0⟩ []
      { writes := [(stored.version, stored.document.reread)] }
      (stored.version, stored.document.reread) where
  newest := rfl
  increasing := List.pairwise_singleton _ _
  file _ file := ⟨stored, (Option.some.inj file).symm, filed, rfl⟩
  held _ live := by cases live
  numbered _ _ timeline := by cases timeline
  issued _ mem := absurd mem List.not_mem_nil
  ticketed _ _ live := by cases live.1
  distinct _ live := by cases live
  synced _ _ live := by cases live.1
  writtenDistinct := List.nodup_nil
  writtenBelow _ _ mem := absurd mem List.not_mem_nil
  acceptedDistinct _ := List.nodup_nil
  acceptedBelow _ _ _ live := by cases live.1
  closedBelow _ _ _ _ mem := absurd mem List.not_mem_nil

end InStep

end Flowchart
