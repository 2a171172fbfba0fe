import ProtoStub.Proofs.Listing
import ProtoStub.Proofs.OutputPaths
import ProtoStub.Proofs.TextAgreement
import ProtoStub.Proofs.Writing
import Mathlib.Data.List.Sort

/-!
# The order of files that were written

A run gives the paths of its outputs as they were generated, and writes them in the order of their
paths. What it writes is seen in two ways: as replacements of files one after another
(`WritesEach`), and by the records it leaves in the log, one for each file. `Progress.Writes` joins
the two, and fixes the order of the paths (`Progress.Writes.paths_eq`).

Before the first file is written no record says that one is (`Order.run_silent`); from there on one
step adds one record (`Run.writeFile_eq_ok`). So a run that ends well writes its outputs by
ascending path, and the paths it gives are in the order of writing exactly when they ascend
(`run_files_written_iff`). They need not: a name that goes on with a dot is generated behind the
shorter name, and written before it (`dotted_written_first`).
-/

namespace ProtoStub

open Text
open Program (bind_eq_ok_iff)

/-! ## Records of files -/

/-- The record of a file that was written. -/
def OutputFile.record (o : OutputFile) : LogRecord :=
  ⟨.debug, "wrote file", [("file", .text o.path), ("bytes", .number o.content.utf8ByteSize)]⟩

/-- The records in a log that say that a file was written. -/
def writeRecords (log : List LogRecord) : List LogRecord :=
  log.filter (·.message == "wrote file")

@[simp] theorem writeRecords_append (log more : List LogRecord) :
    writeRecords (log ++ more) = writeRecords log ++ writeRecords more := List.filter_append ..

theorem writeRecords_map_record (outputs : List OutputFile) :
    writeRecords (outputs.map (·.record)) = outputs.map (·.record) := by
  refine List.filter_eq_self.2 fun r hr => ?_
  obtain ⟨o, -, rfl⟩ := List.mem_map.1 hr
  exact beq_self_eq_true _

theorem writeRecords_warnings (warnings : List Definition.Warning) :
    writeRecords (warnings.map Order.warningRecord) = [] := by
  refine List.filter_eq_nil_iff.2 fun r hr => ?_
  obtain ⟨w, -, rfl⟩ := List.mem_map.1 hr
  simp [Order.warningRecord]

/-- Choosing how files are read leaves no record of writing. -/
theorem writeRecords_select {w : Workspace} {compiler : ExternalCompiler} {name : String}
    {strategy : Strategy} {notes : List LogRecord}
    (h : Strategy.select w compiler name = .ok (strategy, notes)) : writeRecords notes = [] := by
  rw [Strategy.select.eq_def] at h
  obtain ⟨⟨chosen, first⟩, hfirst, h⟩ := bind_eq_ok_iff.1 h
  cases h
  rw [writeRecords_append]
  split at hfirst
  · cases hfirst
    rfl
  · cases hfirst
    rfl
  · cases hfirst
    rfl
  · split at hfirst <;> cases hfirst <;> rfl
  · cases hfirst

/-- Records tell the paths of the files. -/
theorem map_path_of_map_record {outputs outputs' : List OutputFile}
    (h : outputs.map (·.record) = outputs'.map (·.record)) :
    outputs.map (·.path) = outputs'.map (·.path) := by
  induction outputs generalizing outputs' with
  | nil => simp_all
  | cons o outputs ih =>
    cases outputs' with
    | nil => cases h
    | cons o' outputs' =>
      obtain ⟨hfirst, hrest⟩ := List.cons.inj h
      have hpath : o.path = o'.path := by simp_all [OutputFile.record]
      rw [List.map_cons, List.map_cons, hpath, ih hrest]

/-! ## Writing -/

/-- The outputs are written one after another, each by replacing what is at its path. -/
inductive WritesEach : Workspace → List OutputFile → Workspace → Prop
  | done (w : Workspace) : WritesEach w [] w
  | write {w w' w'' : Workspace} {o : OutputFile} {outputs : List OutputFile}
      (hfirst : Edit.replace o.path (bytesOf o.content) w = (.ok (), w'))
      (hrest : WritesEach w' outputs w'') : WritesEach w (o :: outputs) w''

/-- From `s` to `s'` the outputs were written in this order, and the log says so. -/
structure Progress.Writes (s s' : Progress) (written : List OutputFile) : Prop where
  files : WritesEach s.workspace written s'.workspace
  records : writeRecords s'.log = writeRecords s.log ++ written.map (·.record)

/-- There is one order of the paths. -/
theorem Progress.Writes.paths_eq {s s' : Progress} {written written' : List OutputFile}
    (h : s.Writes s' written) (h' : s.Writes s' written') :
    written.map (·.path) = written'.map (·.path) := by
  have hrecords := h.records
  rw [h'.records] at hrecords
  exact map_path_of_map_record (List.append_cancel_left hrecords).symm

namespace Run

/-- One file is written, and one record. -/
theorem writeFile_eq_ok {o : OutputFile} {s s' : Progress} (h : writeFile o s = (.ok (), s')) :
    ∃ w, Edit.replace o.path (bytesOf o.content) s.workspace = (.ok (), w) ∧
      s' = ⟨w, s.log ++ [o.record]⟩ := by
  rw [writeFile, bind_apply, edit] at h
  rcases hr : Edit.replace o.path (bytesOf o.content) s.workspace with ⟨_ | _, w⟩
  · rw [hr] at h
    cases h
  · rw [hr] at h
    cases h
    exact ⟨w, rfl, rfl⟩

/-- All are written, in the order in which they come. -/
theorem forM_writeFile_eq_ok {outputs : List OutputFile} {s s' : Progress}
    (h : outputs.forM writeFile s = (.ok (), s')) :
    WritesEach s.workspace outputs s'.workspace ∧
      s'.log = s.log ++ outputs.map (·.record) := by
  induction outputs generalizing s with
  | nil =>
    cases h
    exact ⟨.done _, by simp⟩
  | cons o outputs ih =>
    rw [List.forM, bind_apply] at h
    rcases hfirst : writeFile o s with ⟨_ | _, s₁⟩
    · rw [hfirst] at h
      cases h
    · rw [hfirst] at h
      obtain ⟨w, hreplace, rfl⟩ := writeFile_eq_ok hfirst
      obtain ⟨hrest, hlog⟩ := ih h
      exact ⟨.write hreplace hrest, by rw [hlog]; simp⟩

/-- Started at `s`, the step `x` works out the result `r` and goes on with `next` when it is one.
Until then no file is changed, and no record says that one was written. -/
def Silent {α β : Type} (s : Progress) (x : Run β) (r : Except Error α) (next : α → Run β) : Prop :=
  ∃ records, writeRecords records = [] ∧ x s = match r with
    | .error e => (.error e, ⟨s.workspace, s.log ++ records⟩)
    | .ok a => next a ⟨s.workspace, s.log ++ records⟩

section
variable {α β γ : Type} {s : Progress} {r : Except Error α} {next : α → Run β}

theorem Silent.get {f : Progress → Run β} (h : Silent s (f s) r next) :
    Silent s (MonadState.get >>= f) r next := h

theorem Silent.note {records : List LogRecord} {f : Unit → Run β} (hr : writeRecords records = [])
    (h : Silent ⟨s.workspace, s.log ++ records⟩ (f ()) r next) :
    Silent s (Run.note records >>= f) r next := by
  obtain ⟨more, hmore, hx⟩ := h
  refine ⟨records ++ more, by simp [hr, hmore], ?_⟩
  rw [← List.append_assoc]
  exact hx

/-- A step that only computes leaves no record of writing. -/
theorem Silent.ofExcept {c : Except Error γ} {f : γ → Run β} {g : γ → Except Error α}
    (h : ∀ a, c = .ok a → Silent s (f a) (g a) next) :
    Silent s (Run.ofExcept c >>= f) (c >>= g) next := by
  rcases c with e | a
  · exact ⟨[], rfl, by rw [List.append_nil]; rfl⟩
  · exact h a rfl

/-- The last of the silent steps: what comes next may write. -/
theorem Silent.last : Silent s (Run.ofExcept r >>= next) r next := by
  rcases r with e | a <;> exact ⟨[], rfl, by rw [List.append_nil]; rfl⟩

end

end Run

/-- No file is written before all outputs are known, and none is said to be. -/
theorem Order.run_silent (o : Order) (s : Progress) :
    Run.Silent s o.run (o.prepare s.workspace) o.finish := by
  refine .get (.ofExcept fun inputs _ => .ofExcept fun root _ => .note rfl (.ofExcept ?_))
  rintro ⟨strategy, notes⟩ hselect
  exact .note (writeRecords_select hselect) (.note (writeRecords_warnings _)
    (.ofExcept fun files _ => .note rfl (.ofExcept fun program _ => .last)))

section
variable {o : Order} {s s' : Progress} {files : List String}

/-- The end of a run writes the outputs in the order of their paths. -/
theorem finish_eq_ok {outputs : List OutputFile} (h : o.finish outputs s = (.ok files, s')) :
    files = outputs.map (·.path) ∧
      s.Writes s' (outputs.mergeSort (decide <| ·.path ≤ ·.path)) := by
  rw [Order.finish, bind_apply] at h
  rcases hwrite : Run.writeFiles outputs s with ⟨_ | _, s₁⟩
  · rw [hwrite] at h
    cases h
  · rw [hwrite] at h
    cases h
    obtain ⟨hfiles, hlog⟩ := Run.forM_writeFile_eq_ok hwrite
    refine ⟨rfl, hfiles, ?_⟩
    have hlast : writeRecords [⟨.info, "generated files",
      [("dir", .text o.out), ("count", .number outputs.length)]⟩] = [] := rfl
    change writeRecords (s₁.log ++ _) = _
    rw [hlog, writeRecords_append, hlast, List.append_nil, writeRecords_append,
      writeRecords_map_record]

/-- A run that ends well has worked out outputs, and written them in the order of their paths. -/
theorem run_eq_ok (h : o.run s = (.ok files, s')) :
    ∃ outputs written, o.prepare s.workspace = .ok outputs ∧ files = outputs.map (·.path) ∧
      s.Writes s' written ∧ written.Perm outputs ∧ written.Pairwise (·.path ≤ ·.path) := by
  obtain ⟨records, hrecords, hrun⟩ := o.run_silent s
  rw [h] at hrun
  cases hp : o.prepare s.workspace with
  | error e =>
    rw [hp] at hrun
    cases hrun
  | ok outputs =>
    rw [hp] at hrun
    obtain ⟨hfiles, hwrites⟩ := finish_eq_ok hrun.symm
    refine ⟨outputs, _, rfl, hfiles, ⟨hwrites.files, ?_⟩, List.mergeSort_perm _ _,
      Schema.pairwise_mergeSort_le (·.path) outputs⟩
    rw [hwrites.records, writeRecords_append, hrecords, List.append_nil]

/-- A run that ends well gives the paths of its outputs as they were generated, and has written the
outputs by ascending path. So the paths are given in the order in which the files were written
exactly when they ascend. -/
theorem run_files_written_iff (h : o.run s = (.ok files, s')) :
    ∃ outputs, o.prepare s.workspace = .ok outputs ∧ files = outputs.map (·.path) ∧
      (∃ written, s.Writes s' written ∧ written.Perm outputs ∧
        written.Pairwise (·.path ≤ ·.path)) ∧
      ∀ written, s.Writes s' written →
        (files = written.map (·.path) ↔ files.Pairwise (· ≤ ·)) := by
  obtain ⟨outputs, sorted, hprepare, hfiles, hwrites, hperm, hordered⟩ := run_eq_ok h
  refine ⟨outputs, hprepare, hfiles, ⟨sorted, hwrites, hperm, hordered⟩, fun written hwritten => ?_⟩
  have hascend : (sorted.map (·.path)).Pairwise (· ≤ ·) := List.pairwise_map.2 hordered
  rw [hwritten.paths_eq hwrites]
  constructor
  · intro heq
    rw [heq]
    exact hascend
  · intro hsorted
    have hsame : files.Perm (sorted.map (·.path)) := by
      rw [hfiles]
      exact (hperm.map _).symm
    exact hsame.eq_of_pairwise' hsorted hascend

end

/-! ## Names with a dot -/

/-- Two schema files, of which the second has the name of the first and more. -/
def dottedTree : Workspace where
  entries := [(["o"], .directory), (["r"], .directory),
    (["r", "a.proto"], .file (bytesOf "enum A { X = 0; }")),
    (["r", "a.q.proto"], .file (bytesOf "enum B { Y = 0; }"))]

def dottedOrder : Order where
  proto := "/r"
  out := "/o"
  profile := "async"
  strategy := "text"

/-- What is read of them. -/
def dottedFiles : Schema.FileSet where
  files := [
    { path := "/r/a.proto", name := "a.proto"
      enums := [{ name := "A", line := 1, values := [{ name := "X" }] }] },
    { path := "/r/a.q.proto", name := "a.q.proto"
      enums := [{ name := "B", line := 1, values := [{ name := "Y" }] }] }]
  inputs := ["/r/a.proto", "/r/a.q.proto"]

theorem discover_dottedTree : discover dottedTree "/r" [] = .ok ["/r/a.proto", "/r/a.q.proto"] := by
  have hw : dottedTree.IsTree := ⟨by decide, by decide⟩
  have hdir : dottedTree.find (dottedTree.absolute "/r") = .ok .directory := by decide +kernel
  have hplace : dottedTree.placeOf "/r" = ["r"] := by decide
  have hways : freeWays dottedTree ["r"] [] = [["a.proto"], ["a.q.proto"]] := by decide
  rw [discover_eq_freeWays hw hdir (by simp) not_refusedBelow_nil, hplace, hways, if_neg (by simp)]
  have hpaths : [["a.proto"], ["a.q.proto"]].map (fun names => Workspace.pathOf (["r"] ++ names)) =
      ["/r/a.proto", "/r/a.q.proto"] := by decide
  rw [hpaths, ascending, List.mergeSort_of_pairwise (by decide +kernel)]

def dottedSurroundings : Surroundings where
  search := ⟨dottedTree, ["/r"]⟩

theorem read_dottedTree :
    (Strategy.text.read dottedSurroundings ["/r/a.proto", "/r/a.q.proto"]).result =
      .ok dottedFiles := by
  refine read_of_foldlM ["/r/a.proto", "/r/a.q.proto"] rfl (by decide +kernel) (.refl _)
    (by decide +kernel) ?_ (by decide +kernel)
  have hfirst : dottedSurroundings.search.Reads "/r/a.proto"
      ⟨{ path := "/r/a.proto", enums := [{ name := "A", line := 1, values := [{ name := "X" }] }] },
        []⟩ := by decide +kernel
  have hsecond : dottedSurroundings.search.Reads "/r/a.q.proto"
      ⟨{ path := "/r/a.q.proto"
         enums := [{ name := "B", line := 1, values := [{ name := "Y" }] }] }, []⟩ := by
    decide +kernel
  have hname : dottedSurroundings.search.displayName "/r/a.proto" "a.proto" = "a.proto" := by
    decide +kernel
  have hname' : dottedSurroundings.search.displayName "/r/a.q.proto" "a.q.proto" = "a.q.proto" := by
    decide +kernel
  rw [List.foldlM_cons]
  refine bind_eq_ok_iff.2 ⟨_, loadFile_leaf (by decide) (by decide +kernel) hfirst rfl, ?_⟩
  rw [List.foldlM_cons]
  refine bind_eq_ok_iff.2 ⟨_, loadFile_leaf (by decide +kernel) (by decide +kernel) hsecond rfl, ?_⟩
  have hbase : baseOf "/r/a.proto" = "a.proto" := by decide +kernel
  have hbase' : baseOf "/r/a.q.proto" = "a.q.proto" := by decide +kernel
  rw [hbase, hbase', hname, hname']
  rfl

/-- The outputs are generated in the order of the schema files. -/
theorem prepare_dottedOrder : ∃ outputs, dottedOrder.prepare dottedTree = .ok outputs ∧
    outputs.map (·.path) = ["/o/a.vb", "/o/a.q.vb"] := by
  obtain ⟨p, outputs, hbuild, hgenerate, hview⟩ := VisualBasic.exists_generate_of_view dottedFiles
    (fun p => ((VisualBasic.requested p).map fun i => VisualBasic.unitPath (p.file i),
      (VisualBasic.requested p).all fun i => (p.file i).services.isEmpty))
    (["a.vb", "a.q.vb"], true) (by decide +kernel)
  obtain ⟨hunits, hservices⟩ := Prod.mk.inj hview
  obtain ⟨dirs, -, hdirs, hpaths⟩ := VisualBasic.exists_paths hgenerate
  have hnone : dirs = [] := by
    refine List.eq_nil_iff_forall_not_mem.2 fun dir hdir => ?_
    obtain ⟨-, i, hi, hservice⟩ := (hdirs dir).1 hdir
    have hempty := List.all_eq_true.1 hservices i (List.mem_filter.1 hi).1
    exact hservice (List.isEmpty_iff.1 hempty)
  have hstat : dottedTree.stat (dottedTree.absolute "/r") = .ok .directory := by decide +kernel
  have hstart : dottedTree.absolute "/r" = "/r" := by decide +kernel
  have hroot : dottedOrder.root dottedTree = .ok "/r" :=
    bind_eq_ok_iff.2 ⟨.directory, congrArg (Except.mapError Error.refused) hstat,
      congrArg Except.ok hstart⟩
  have hout : baseOf (dottedTree.absolute dottedOrder.out) = "o" := by decide +kernel
  refine ⟨outputs, ?_, ?_⟩
  · refine bind_eq_ok_iff.2 ⟨_, discover_dottedTree, bind_eq_ok_iff.2 ⟨_, hroot,
      bind_eq_ok_iff.2 ⟨(.text, _), rfl, bind_eq_ok_iff.2 ⟨_, read_dottedTree,
        bind_eq_ok_iff.2 ⟨p, hbuild, ?_⟩⟩⟩⟩⟩
    rw [Order.outputs, hout]
    exact bind_eq_ok_iff.2 ⟨_, rfl, bind_eq_ok_iff.2 ⟨_, hgenerate, rfl⟩⟩
  · have hjoin : ["a.vb", "a.q.vb"].map (fun path => joinPath ["/o", path]) =
        ["/o/a.vb", "/o/a.q.vb"] := by decide +kernel
    rw [hpaths, hnone, List.map_nil, List.append_nil, ← hjoin, ← hunits, List.map_map]
    rfl

/-- The run ends well. -/
theorem run_dottedOrder :
    ∃ s', dottedOrder.run ⟨dottedTree, []⟩ = (.ok ["/o/a.vb", "/o/a.q.vb"], s') := by
  obtain ⟨outputs, hprepare, hpaths⟩ := prepare_dottedOrder
  obtain ⟨log, hrun⟩ := dottedOrder.run_computes ⟨dottedTree, []⟩
  rw [hprepare] at hrun
  obtain ⟨k, sorted, hstops, hall⟩ := exists_stopsAfter outputs ⟨dottedTree, log⟩
  have hwritable : ∀ path ∈ ["/o/a.vb", "/o/a.q.vb"], dottedTree.Writable path := by
    simp only [List.forall_mem_cons]
    refine ⟨?_, ?_, by simp⟩ <;>
      exact ⟨rfl, ⟨by decide, by decide, _, rfl⟩, _, rfl, by decide, fun _ _ => by decide⟩
  have hend := hstops.progress fun o ho => hwritable _ (hpaths ▸ List.mem_map_of_mem ho)
  have hresult := (finish_workspace dottedOrder outputs ⟨dottedTree, log⟩).2.2 (hall.1 hend)
  rw [hpaths] at hresult
  exact ⟨_, hrun.trans (Prod.ext hresult rfl)⟩

/-- A run that ends well, over two names of which one goes on with a dot. -/
theorem dottedOrder_writes : ∃ s', dottedOrder.run ⟨dottedTree, []⟩ =
      (.ok ["/o/a.vb", "/o/a.q.vb"], s') ∧
    ∃ outputs, dottedOrder.prepare dottedTree = .ok outputs ∧
      ["/o/a.vb", "/o/a.q.vb"] = outputs.map (·.path) ∧
      (∃ written, Progress.Writes ⟨dottedTree, []⟩ s' written ∧ written.Perm outputs ∧
        written.Pairwise (·.path ≤ ·.path)) ∧
      ∀ written, Progress.Writes ⟨dottedTree, []⟩ s' written →
        (["/o/a.vb", "/o/a.q.vb"] = written.map (·.path) ↔
          ["/o/a.vb", "/o/a.q.vb"].Pairwise (· ≤ ·)) := by
  obtain ⟨s', h⟩ := run_dottedOrder
  exact ⟨s', h, run_files_written_iff h⟩

/-- The paths are given in one order, and the files were written in the other. -/
theorem dotted_written_first : ∃ s', dottedOrder.run ⟨dottedTree, []⟩ =
      (.ok ["/o/a.vb", "/o/a.q.vb"], s') ∧
    ∃ written, Progress.Writes ⟨dottedTree, []⟩ s' written ∧
      written.map (·.path) = ["/o/a.q.vb", "/o/a.vb"] := by
  obtain ⟨s', h⟩ := run_dottedOrder
  obtain ⟨outputs, written, -, hfiles, hwrites, hperm, hordered⟩ := run_eq_ok h
  refine ⟨s', h, written, hwrites, ?_⟩
  have hpaths : (written.map (·.path)).Perm ["/o/a.q.vb", "/o/a.vb"] := by
    refine (hperm.map _).trans ?_
    rw [← hfiles]
    exact .swap ..
  exact hpaths.eq_of_pairwise' (List.pairwise_map.2 hordered) (by decide +kernel)

end ProtoStub
