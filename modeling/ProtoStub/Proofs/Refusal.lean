import ProtoStub.Proofs.Resolution

/-!
# What the passes refuse

Only the check of the imports refuses a set for a file that is not in it: declaring names and
resolving types have errors of their own. So a set whose imports all lead to its files is never
refused for a missing file (`build_ne_notLoaded`).
-/

namespace ProtoStub.Program

open Schema (FileSet)

/-! ## Errors that do not come from a step -/

section
variable {ε α β : Type} {e : ε}

theorem ok_ne_error {a : α} : (Except.ok a : Except ε α) ≠ .error e := by
  simp

/-- An error that is passed on is none that its origin does not have. -/
theorem error_ne_error {x : Except ε α} {e' : ε} (hx : x ≠ .error e) (he : x = .error e') :
    (.error e' : Except ε β) ≠ .error e := fun h =>
  hx (he.trans (congrArg _ (Except.error.inj h)))

/-- Two steps do not fail with an error that neither of them has. -/
theorem bind_ne_error {x : Except ε α} {g : α → Except ε β} (hx : x ≠ .error e)
    (hg : ∀ a, g a ≠ .error e) : (x >>= g) ≠ .error e := by
  cases x with
  | error e' => exact fun h => hx (congrArg _ (Except.error.inj h))
  | ok a => exact hg a

/-- A fold has no error that no step of it has. -/
theorem foldlM_ne_error {g : β → α → Except ε β} (hg : ∀ b x, g b x ≠ .error e) (xs : List α)
    (b : β) : xs.foldlM g b ≠ .error e := by
  induction xs generalizing b with
  | nil => exact ok_ne_error
  | cons x xs ih =>
    rw [List.foldlM_cons]
    exact bind_ne_error (hg b x) ih

/-- A map has no error that no step of it has. -/
theorem mapM_ne_error {g : α → Except ε β} (hg : ∀ x, g x ≠ .error e) (xs : List α) :
    xs.mapM g ≠ .error e := by
  induction xs with
  | nil => exact ok_ne_error
  | cons x xs ih =>
    rw [List.mapM_cons]
    exact bind_ne_error (hg x) fun y => bind_ne_error ih fun ys => ok_ne_error

end

/-! ## Files that are not in the set -/

/-- The error of an import whose file is not in the set. -/
def notLoaded (file : String) (line : Int) (path : String) : Error :=
  .parse ⟨file, line, .importNotLoaded path⟩

section
variable {s : FileSet} {n : Names} {visible : List Nat} {k : Nat} {scope file path : String}
  {line : Int}

/-- Declaring complains of names, never of files. -/
theorem declareAll_ne_notLoaded : declareAll s ≠ .error (notLoaded file line path) := by
  rw [declareAll_eq_foldlM]
  refine foldlM_ne_error (fun d st => ?_) _ _
  cases st with
  | message m | enum m =>
    simp only [Step.run, Declarations.enter]
    cases d.symbols.find m.fullName with
    | none => exact ok_ne_error
    | some earlier => simp [notLoaded]

/-- The fields of a message complain of their types, never of files. -/
theorem resolveFields_ne_notLoaded {owner name : String} {done : List Field}
    {fs : List Schema.Field} :
    resolveFields n visible k owner name done fs ≠ .error (notLoaded file line path) := by
  fun_induction resolveFields n visible k owner name done fs with
  | case1 | case2 | case3 | case4 | case5 => simp [notLoaded]
  | case6 done f rest hmap hnum hname type htype ih => exact ih

theorem resolveMethod_ne_notLoaded {owner : String} {m : Schema.Method} :
    resolveMethod n visible k scope owner m ≠ .error (notLoaded file line path) := by
  rw [resolveMethod]
  cases hi : n.resolve visible k scope m.input with
  | error e => simp [hi, notLoaded]
  | ok input =>
    cases ho : n.resolve visible k scope m.output with
    | error e => simp [hi, ho, notLoaded]
    | ok output =>
      simp only [hi, ho]
      split <;> simp [notLoaded]

/-- Resolving a file complains of types, never of files. -/
theorem resolveFile_ne_notLoaded {f : Nat × Schema.File} :
    resolveFile n f ≠ .error (notLoaded file line path) := by
  rw [resolveFile]
  refine bind_ne_error ?_ fun fields => bind_ne_error ?_ fun services => ok_ne_error
  · rw [resolveMessages_eq_mapM]
    refine mapM_ne_error (fun x => ?_) _
    have hfields : resolveFields n (n.set.visibleFrom f.1) f.1 (joinScope x.1 x.2.name) x.2.name []
        x.2.fields ≠ .error (notLoaded file line path) := resolveFields_ne_notLoaded
    rw [resolveOutlined]
    split
    · rename_i e he
      exact error_ne_error hfields he
    · exact ok_ne_error
  · refine mapM_ne_error (fun svc => ?_) _
    rw [resolveService]
    have hmethods : svc.methods.mapM (resolveMethod n (n.set.visibleFrom f.1) f.1 f.2.package
        (joinScope f.2.package svc.name)) ≠ .error (notLoaded file line path) :=
      mapM_ne_error (fun m => resolveMethod_ne_notLoaded) _
    split
    · rename_i e he
      exact error_ne_error hmethods he
    · exact ok_ne_error

/-- A set whose imports lead to its files is not refused for a missing one. -/
theorem build_ne_notLoaded {options : BuildOptions} (h : checkImports s = .ok ()) :
    build s options ≠ .error (notLoaded file line path) := by
  rw [build, h]
  exact bind_ne_error ok_ne_error fun _ => bind_ne_error declareAll_ne_notLoaded fun d =>
    bind_ne_error (mapM_ne_error (fun _ => resolveFile_ne_notLoaded) _) fun _ => ok_ne_error

end

end ProtoStub.Program
