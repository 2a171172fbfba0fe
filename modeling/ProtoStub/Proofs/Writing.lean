import ProtoStub.Generation
import ProtoStub.Proofs.Edits
import ProtoStub.Proofs.Loading

/-!
# Writing stops between two files

A run first works out all its outputs (`Order.prepare`) and changes nothing until they are known
(`Order.run_computes`). Then it writes them in the order of their paths. One step writes one file or
stops and leaves the files as they were (`Run.writeFile_cases`); by induction over the outputs, a
whole run writes a first part of them (`Run.forM_writeFile`). So wherever it stops, every file is
either as before or one of the outputs as a whole, and no temporary file is left
(`writing_leaves_prefix`).
-/

namespace ProtoStub

open Text Workspace

/-- The path of an output with the bytes that are written there. -/
def OutputFile.written (o : OutputFile) : String × List UInt8 := (o.path, bytesOf o.content)

namespace Run

/-- One output is written, or the files stay as they were. -/
theorem writeFile_cases (o : OutputFile) (s : Progress) :
    (¬ s.workspace.Writable o.path ∧
        ∃ e s', writeFile o s = (.error e, s') ∧ Updated s.workspace s'.workspace []) ∨
      ∃ s', writeFile o s = (.ok (), s') ∧ Updated s.workspace s'.workspace [o.written] ∧
        (s.workspace.Writable o.path → s.workspace.Keeps s'.workspace) := by
  rw [writeFile, bind_apply, edit]
  rcases Edit.replace_cases o.path (bytesOf o.content) s.workspace with
    ⟨hnot, e, w, hr, h⟩ | ⟨w, hr, h, hkeeps⟩
  · rw [hr]
    exact .inl ⟨hnot, e, _, rfl, h⟩
  · rw [hr]
    exact .inr ⟨_, rfl, h, hkeeps⟩

/-- Outputs are written one after another up to some point, which is the end when all of them can be
written. -/
theorem forM_writeFile (outputs : List OutputFile) (s : Progress) :
    ∃ k ≤ outputs.length,
      Updated s.workspace (outputs.forM writeFile s).2.workspace
        ((outputs.take k).map (·.written)) ∧
      (k = outputs.length ↔ (outputs.forM writeFile s).1 = .ok ()) ∧
      ((∀ o ∈ outputs, s.workspace.Writable o.path) → k = outputs.length) := by
  induction outputs generalizing s with
  | nil => exact ⟨0, le_rfl, .refl _, by simp; rfl, fun _ => rfl⟩
  | cons o outputs ih =>
    rw [List.forM, bind_apply]
    rcases writeFile_cases o s with ⟨hnot, e, s', hr, h⟩ | ⟨s', hr, h, hkeeps⟩
    · rw [hr]
      exact ⟨0, by simp, h, by simp, fun hw => absurd (hw o List.mem_cons_self) hnot⟩
    · rw [hr]
      obtain ⟨k, hk, hrest, hall, hend⟩ := ih s'
      refine ⟨k + 1, by simpa using hk, h.append hrest, by simpa using hall, fun hw => ?_⟩
      have hkept := hkeeps (hw o List.mem_cons_self)
      simp [hend fun x hx => (hw x (List.mem_cons_of_mem _ hx)).kept hkept]

-- The second output is refused: the first is there as a whole, and no temporary file is left.
example :
    let start : Progress := ⟨{ entries := [(["b"], .directory), (["a"], .file [0])] }, []⟩
    let stop := List.forM [⟨"/a", "new"⟩, ⟨"/b", "new"⟩] writeFile start
    stop.1.toOption = none ∧
      stop.2.workspace.entries = [(["b"], .directory), (["a"], .file (bytesOf "new"))] := by
  decide +kernel

/-- Started at `s`, the step `x` works out the result `r` and goes on with `next` when it is one,
having changed nothing but the log. -/
def Computes {α β : Type} (s : Progress) (x : Run β) (r : Except Error α) (next : α → Run β) :
    Prop :=
  ∃ log, x s = match r with
    | .error e => (.error e, ⟨s.workspace, log⟩)
    | .ok a => next a ⟨s.workspace, log⟩

section
variable {α β γ : Type} {s : Progress} {r : Except Error α} {next : α → Run β}

theorem Computes.get {f : Progress → Run β} (h : Computes s (f s) r next) :
    Computes s (MonadState.get >>= f) r next := h

theorem Computes.note {records : List LogRecord} {f : Unit → Run β}
    (h : Computes ⟨s.workspace, s.log ++ records⟩ (f ()) r next) :
    Computes s (Run.note records >>= f) r next := h

/-- A step that only computes goes on with what it computed, or fails in both. -/
theorem Computes.ofExcept {c : Except Error γ} {f : γ → Run β} {g : γ → Except Error α}
    (h : ∀ a, Computes s (f a) (g a) next) : Computes s (Run.ofExcept c >>= f) (c >>= g) next := by
  rcases c with e | a
  · exact ⟨s.log, rfl⟩
  · exact h a

/-- The last of the steps that only compute: what comes next may change files. -/
theorem Computes.last : Computes s (Run.ofExcept r >>= next) r next := by
  rcases r with e | a <;> exact ⟨s.log, rfl⟩

end

end Run

namespace Order

/-- The outputs of a run, or why there are none: all that is done before the first of them is
written. -/
def prepare (o : Order) (w : Workspace) : Except Error (List OutputFile) := do
  let inputs ← discover w o.proto o.excludes
  let root ← o.root w
  let (strategy, _) ← Strategy.select w o.compiler o.strategy
  let reading := strategy.read
    { search := ⟨w, root :: o.roots⟩, timeout := o.timeout, compiler := o.compiler } inputs
  let files ← reading.result
  let program ← Program.build files ⟨o.namespaceName, root⟩
  o.outputs w program

/-- The end of a run, which writes the outputs. -/
def finish (o : Order) (outputs : List OutputFile) : Run (List String) := do
  Run.writeFiles outputs
  Run.note [⟨.info, "generated files",
    [("dir", .text o.out), ("count", .number outputs.length)]⟩]
  return outputs.map (·.path)

/-- Nothing is written before all outputs are known. -/
theorem run_computes (o : Order) (s : Progress) :
    Run.Computes s o.run (o.prepare s.workspace) o.finish := by
  refine .get (.ofExcept fun inputs => .ofExcept fun root => .note (.ofExcept ?_))
  rintro ⟨strategy, notes⟩
  exact .note (.note (.ofExcept fun files => .note (.ofExcept fun program => .last)))

end Order

/-! ## Where writing stops -/

/-- Of the outputs, in the order `sorted`, the first `k` were written to `w`, which gave `w'`. -/
structure StopsAfter (k : Nat) (outputs sorted : List OutputFile) (w w' : Workspace) : Prop where
  /-- The order is that of the paths. -/
  perm : sorted.Perm outputs
  ordered : sorted.Pairwise (·.path ≤ ·.path)
  le : k ≤ outputs.length
  /-- Each of the first `k` holds exactly its content, when the outputs go to places of their
  own. -/
  holds : (outputs.map (w.placeOf ·.path)).Nodup →
    ∀ o ∈ sorted.take k, w'.read o.path = .ok (bytesOf o.content)
  /-- A place that several of them go to holds the content of one of them as a whole. -/
  whole : ∀ o ∈ sorted.take k, ∃ o' ∈ sorted.take k,
    w.placeOf o'.path = w.placeOf o.path ∧ w'.read o.path = .ok (bytesOf o'.content)
  /-- There is a file with the same content as before, or none as before, at any other place. -/
  others : ∀ place, (∀ o ∈ sorted.take k, w.placeOf o.path ≠ place) →
    w'.fileAt? place = w.fileAt? place
  directories : ∀ place, w.entry? place = some .directory → w'.entry? place = some .directory
  /-- It stops early only where an output cannot be written. -/
  progress : (∀ o ∈ outputs, w.Writable o.path) → k = outputs.length

/-- The first outputs in the order of paths, written one after another, are where writing stops. -/
theorem Workspace.Updated.stopsAfter {outputs : List OutputFile} {k : Nat} {w w' : Workspace}
    (hk : k ≤ outputs.length)
    (h : Updated w w' (((outputs.mergeSort (decide <| ·.path ≤ ·.path)).take k).map (·.written)))
    (hprogress : (∀ o ∈ outputs, w.Writable o.path) → k = outputs.length) :
    StopsAfter k outputs (outputs.mergeSort (decide <| ·.path ≤ ·.path)) w w' := by
  have hordered : (outputs.mergeSort (decide <| ·.path ≤ ·.path)).Pairwise (·.path ≤ ·.path) :=
    Schema.pairwise_mergeSort_le (·.path) outputs
  have hperm := List.mergeSort_perm outputs (decide <| ·.path ≤ ·.path)
  generalize outputs.mergeSort (decide <| ·.path ≤ ·.path) = sorted at *
  have hwhole : ∀ o ∈ sorted.take k, ∃ o' ∈ sorted.take k,
      w.placeOf o'.path = w.placeOf o.path ∧ w'.read o.path = .ok (bytesOf o'.content) := by
    intro o ho
    have hmem : o.written ∈ (sorted.take k).map (·.written) := List.mem_map_of_mem ho
    obtain ⟨content, hread⟩ := h.reads _ hmem
    obtain ⟨x, hx, hplace, hfile⟩ := filesAfter_of_mem hmem
    obtain ⟨o', ho', rfl⟩ := List.mem_map.1 hx
    rw [h.read_eq hread] at hfile
    exact ⟨o', ho', hplace, hread.trans (congrArg Except.ok (Option.some.inj hfile))⟩
  refine ⟨hperm, hordered, hk, fun hnodup o ho => ?_, hwhole, fun place hplace => ?_,
    h.directories, hprogress⟩
  · obtain ⟨o', ho', hplace, hread⟩ := hwhole o ho
    have hsub : (sorted.map (w.placeOf ·.path)).Nodup := (hperm.map _).nodup_iff.2 hnodup
    have heq := List.inj_on_of_nodup_map hsub (List.mem_of_mem_take ho') (List.mem_of_mem_take ho)
      hplace
    rwa [heq] at hread
  · rw [h.files, filesAfter_of_ne]
    intro x hx
    obtain ⟨o, ho, rfl⟩ := List.mem_map.1 hx
    exact hplace o ho

/-- Writing stops after some of the outputs, and after all of them exactly when it succeeds. -/
theorem exists_stopsAfter (outputs : List OutputFile) (s : Progress) :
    ∃ k sorted, StopsAfter k outputs sorted s.workspace (Run.writeFiles outputs s).2.workspace ∧
      (k = outputs.length ↔ (Run.writeFiles outputs s).1 = .ok ()) := by
  obtain ⟨k, hk, h, hall, hend⟩ :=
    Run.forM_writeFile (outputs.mergeSort (decide <| ·.path ≤ ·.path)) s
  rw [List.length_mergeSort] at hk hall hend
  refine ⟨k, _, h.stopsAfter hk fun hw => hend fun o ho => ?_, hall⟩
  exact hw o ((List.mergeSort_perm outputs _).mem_iff.1 ho)

/-- What follows on the writing changes no file and does not fail. -/
theorem finish_workspace (o : Order) (outputs : List OutputFile) (s : Progress) :
    (o.finish outputs s).2.workspace = (Run.writeFiles outputs s).2.workspace ∧
      ((o.finish outputs s).1 = .ok (outputs.map (·.path)) ↔
        (Run.writeFiles outputs s).1 = .ok ()) := by
  rw [Order.finish, bind_apply]
  rcases Run.writeFiles outputs s with ⟨_ | _, s'⟩
  · simp
  · exact ⟨rfl, by simp; rfl⟩

end ProtoStub
