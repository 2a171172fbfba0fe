import ProtoStub.Proofs.Declaration
import Mathlib.Data.List.Forall2

/-!
# What the files of a set declare

`File.allMessages` and `File.allEnums` list what a file declares at any depth, each with the scope
it stands in: the package, or the full name of the message around it. They are read off the schema
alone and know nothing of numbers or of the symbol table. This module ties the steps of the first
pass to them. The messages of the steps are those of the outline, in the same order
(`messagesOf_fileSteps_map`); the enums are the same up to order, since a message's enums are
declared after the messages nested in it (`enumsOf_fileSteps_perm`). `AllPlaced` is what a step can
rely on: it stands at the top of its file, or in a message that is declared before it.
-/

namespace ProtoStub.Schema

open Program (joinScope)

mutual

/-- A message and the messages nested in it, outermost first, each with the scope it stands in. -/
def Message.withNested (scope : String) : Message → List (String × Message)
  | ⟨name, line, fields, messages, enums⟩ =>
    (scope, ⟨name, line, fields, messages, enums⟩) ::
      Message.allWithNested (joinScope scope name) messages

/-- Messages and the messages nested in them, each with the scope it stands in. -/
def Message.allWithNested (scope : String) : List Message → List (String × Message)
  | [] => []
  | m :: rest => m.withNested scope ++ Message.allWithNested scope rest

end

/-- The enums directly in messages, each with the full name of its message. -/
def nestedEnums (ms : List (String × Message)) : List (String × Enum) :=
  ms.flatMap fun x => x.2.enums.map (joinScope x.1 x.2.name, ·)

namespace File

/-- The messages of a file at any depth, each with the scope it stands in. -/
def allMessages (f : File) : List (String × Message) := Message.allWithNested f.package f.messages

/-- The enums of a file at any depth, each with the scope it stands in. -/
def allEnums (f : File) : List (String × Enum) :=
  f.enums.map (f.package, ·) ++ nestedEnums f.allMessages

/-- The full names of the messages of a file. -/
def messageNames (f : File) : List String := f.allMessages.map fun x => joinScope x.1 x.2.name

/-- The full names of the enums of a file. -/
def enumNames (f : File) : List String := f.allEnums.map fun x => joinScope x.1 x.2.name

end File

namespace FileSet

/-- The messages of a set at any depth, each with the number of its file and the scope it stands
in. -/
def allMessages (s : FileSet) : List (Nat × String × Message) :=
  (Program.numberedFiles s).flatMap fun file => file.2.allMessages.map (file.1, ·)

/-- The enums of a set at any depth, each with the number of its file and the scope it stands in. -/
def allEnums (s : FileSet) : List (Nat × String × Enum) :=
  (Program.numberedFiles s).flatMap fun file => file.2.allEnums.map (file.1, ·)

/-- The full names of all messages and enums of a set. -/
def fullNames (s : FileSet) : List String :=
  s.files.flatMap fun f => f.messageNames ++ f.enumNames

/-- The names of all messages and enums of a set, as they are declared. -/
def declaredNames (s : FileSet) : List String :=
  s.files.flatMap fun f => f.allMessages.map (·.2.name) ++ f.allEnums.map (·.2.name)

end FileSet

end ProtoStub.Schema

namespace ProtoStub.Program

open Schema (FileSet)

/-! ## Numbered lists -/

/-- An item of a numbered list stands at its number. -/
theorem getElem?_zip_range {α : Type} (xs : List α) (i : Nat) :
    ((List.range xs.length).zip xs)[i]? = xs[i]?.map (i, ·) := by
  by_cases hi : i < xs.length
  · simp [hi]
  · simp [hi]

/-- A file stands at its number. -/
theorem getElem?_numberedFiles (s : FileSet) (k : Nat) :
    (numberedFiles s)[k]? = s.files[k]?.map (k, ·) :=
  getElem?_zip_range s.files k

/-- The numbered files. -/
theorem mem_numberedFiles {s : FileSet} {k : Nat} {f : Schema.File} :
    (k, f) ∈ numberedFiles s ↔ s.files[k]? = some f := by
  rw [List.mem_iff_getElem?]
  constructor
  · rintro ⟨i, hi⟩
    rw [getElem?_numberedFiles, Option.map_eq_some_iff] at hi
    obtain ⟨f', hf', he⟩ := hi
    cases he
    exact hf'
  · intro h
    exact ⟨k, by rw [getElem?_numberedFiles, h]; rfl⟩

/-- What is listed for the numbered files is listed for one of them. -/
theorem mem_flatMap_numberedFiles {α : Type} {s : FileSet} {g : Schema.File → List α} {k : Nat}
    {a : α} :
    (k, a) ∈ (numberedFiles s).flatMap (fun file => (g file.2).map (file.1, ·)) ↔
      ∃ f, s.files[k]? = some f ∧ a ∈ g f := by
  rw [List.mem_flatMap]
  constructor
  · rintro ⟨⟨k', f⟩, hf, hx⟩
    obtain ⟨a', ha', he⟩ := List.mem_map.1 hx
    cases he
    exact ⟨f, mem_numberedFiles.1 hf, ha'⟩
  · rintro ⟨f, hf, ha⟩
    exact ⟨(k, f), mem_numberedFiles.2 hf, List.mem_map_of_mem ha⟩

/-- The numbered files are the files. -/
theorem numberedFiles_map_snd (s : FileSet) : (numberedFiles s).map (·.2) = s.files :=
  List.map_snd_zip (by simp)

/-! ## The steps and the outline -/

@[simp] theorem messagesOf_map_enum (es : List DeclaredEnum) :
    messagesOf (es.map .enum) = [] := by
  induction es with
  | nil => rfl
  | cons e rest ih => exact ih

@[simp] theorem enumsOf_map_enum (es : List DeclaredEnum) : enumsOf (es.map .enum) = es := by
  induction es with
  | nil => rfl
  | cons e rest ih => exact congrArg (e :: ·) ih

mutual

/-- The messages that the steps of a message declare are those of its outline. -/
theorem messagesOf_messageSteps_map (file : Nat) (parent : Option Nat) (scope : String)
    (base : Nat) : ∀ m : Schema.Message,
      (messagesOf (messageSteps file parent scope base m)).map
          (fun x => (x.file, x.fullName, x.raw)) =
        (m.withNested scope).map fun x => (file, joinScope x.1 x.2.name, x.2)
  | ⟨name, line, fields, messages, enums⟩ => by
    simp only [messageSteps, Schema.Message.withNested, messagesOf_message, messagesOf_append,
      messagesOf_map_enum, List.append_nil, List.map_cons]
    rw [messagesOf_messagesSteps_map file (some base) (joinScope scope name) (base + 1) messages]

/-- The messages that the steps of messages declare are those of their outline. -/
theorem messagesOf_messagesSteps_map (file : Nat) (parent : Option Nat) (scope : String)
    (base : Nat) : ∀ ms : List Schema.Message,
      (messagesOf (messagesSteps file parent scope base ms)).map
          (fun x => (x.file, x.fullName, x.raw)) =
        (Schema.Message.allWithNested scope ms).map fun x => (file, joinScope x.1 x.2.name, x.2)
  | [] => by simp [messagesSteps, Schema.Message.allWithNested]
  | m :: rest => by
    simp only [messagesSteps, Schema.Message.allWithNested, messagesOf_append, List.map_append]
    rw [messagesOf_messageSteps_map file parent scope base m,
      messagesOf_messagesSteps_map file parent scope _ rest]

end

/-- The messages of a file's steps are those of its outline. -/
theorem messagesOf_fileSteps_map (base : Nat) (file : Nat × Schema.File) :
    (messagesOf (fileSteps base file)).map (fun x => (x.file, x.fullName, x.raw)) =
      file.2.allMessages.map fun x => (file.1, joinScope x.1 x.2.name, x.2) := by
  rw [fileSteps, messagesOf_append, messagesOf_map_enum, List.append_nil,
    messagesOf_messagesSteps_map]
  rfl

/-- The enums of one place as declared entries, without their parent. -/
theorem enumEntries_map (file : Nat) (parent : Option Nat) (scope : String)
    (es : List Schema.Enum) :
    (enumEntries file parent scope es).map (fun x => (x.file, x.fullName, x.raw)) =
      (es.map (scope, ·)).map fun x => (file, joinScope x.1 x.2.name, x.2) := by
  simp [enumEntries]

mutual

/-- The enums that the steps of a message declare are those in the messages of its outline. -/
theorem enumsOf_messageSteps_perm (file : Nat) (parent : Option Nat) (scope : String)
    (base : Nat) : ∀ m : Schema.Message,
      ((enumsOf (messageSteps file parent scope base m)).map
          (fun x => (x.file, x.fullName, x.raw))).Perm
        ((Schema.nestedEnums (m.withNested scope)).map
          fun x => (file, joinScope x.1 x.2.name, x.2))
  | ⟨name, line, fields, messages, enums⟩ => by
    simp only [messageSteps, Schema.Message.withNested, enumsOf_message, enumsOf_append,
      enumsOf_map_enum, Schema.nestedEnums, List.flatMap_cons, List.map_append, enumEntries_map]
    refine List.perm_append_comm.trans (List.Perm.append_left _ ?_)
    exact enumsOf_messagesSteps_perm file (some base) (joinScope scope name) (base + 1) messages

/-- The enums that the steps of messages declare are those in the messages of their outline. -/
theorem enumsOf_messagesSteps_perm (file : Nat) (parent : Option Nat) (scope : String)
    (base : Nat) : ∀ ms : List Schema.Message,
      ((enumsOf (messagesSteps file parent scope base ms)).map
          (fun x => (x.file, x.fullName, x.raw))).Perm
        ((Schema.nestedEnums (Schema.Message.allWithNested scope ms)).map
          fun x => (file, joinScope x.1 x.2.name, x.2))
  | [] => by simp [messagesSteps, Schema.Message.allWithNested, Schema.nestedEnums]
  | m :: rest => by
    simp only [messagesSteps, Schema.Message.allWithNested, enumsOf_append, List.map_append,
      Schema.nestedEnums, List.flatMap_append]
    exact (enumsOf_messageSteps_perm file parent scope base m).append
      (enumsOf_messagesSteps_perm file parent scope _ rest)

end

/-- The enums of a file's steps are those of its outline, in another order. -/
theorem enumsOf_fileSteps_perm (base : Nat) (file : Nat × Schema.File) :
    ((enumsOf (fileSteps base file)).map (fun x => (x.file, x.fullName, x.raw))).Perm
      (file.2.allEnums.map fun x => (file.1, joinScope x.1 x.2.name, x.2)) := by
  rw [fileSteps, enumsOf_append, enumsOf_map_enum, List.map_append, enumEntries_map,
    Schema.File.allEnums, List.map_append]
  exact List.perm_append_comm.trans
    (List.Perm.append_left _ (enumsOf_messagesSteps_perm _ _ _ _ _))

/-- The messages of the steps of files are those of their outlines. -/
theorem messagesOf_filesSteps_map (base : Nat) (files : List (Nat × Schema.File)) :
    (messagesOf (filesSteps base files)).map (fun x => (x.file, x.fullName, x.raw)) =
      (files.flatMap fun file => file.2.allMessages.map (file.1, ·)).map
        fun x => (x.1, joinScope x.2.1 x.2.2.name, x.2.2) := by
  induction files generalizing base with
  | nil => rfl
  | cons file rest ih =>
    rw [filesSteps, messagesOf_append, List.map_append, messagesOf_fileSteps_map, ih,
      List.flatMap_cons, List.map_append, List.map_map]
    rfl

/-- The enums of the steps of files are those of their outlines, in another order. -/
theorem enumsOf_filesSteps_perm (base : Nat) (files : List (Nat × Schema.File)) :
    ((enumsOf (filesSteps base files)).map (fun x => (x.file, x.fullName, x.raw))).Perm
      ((files.flatMap fun file => file.2.allEnums.map (file.1, ·)).map
        fun x => (x.1, joinScope x.2.1 x.2.2.name, x.2.2)) := by
  induction files generalizing base with
  | nil => exact .nil
  | cons file rest ih =>
    rw [filesSteps, enumsOf_append, List.map_append, List.flatMap_cons, List.map_append,
      List.map_map]
    exact (enumsOf_fileSteps_perm base file).append (ih _)

/-- The messages declared by the first pass are those of the outline, in its order. -/
theorem messagesOf_stepsOf_map (s : FileSet) :
    (messagesOf (stepsOf s)).map (fun x => (x.file, x.fullName, x.raw)) =
      s.allMessages.map fun x => (x.1, joinScope x.2.1 x.2.2.name, x.2.2) :=
  messagesOf_filesSteps_map 0 (numberedFiles s)

/-- The enums declared by the first pass are those of the outline. -/
theorem enumsOf_stepsOf_perm (s : FileSet) :
    ((enumsOf (stepsOf s)).map (fun x => (x.file, x.fullName, x.raw))).Perm
      (s.allEnums.map fun x => (x.1, joinScope x.2.1 x.2.2.name, x.2.2)) :=
  enumsOf_filesSteps_perm 0 (numberedFiles s)

/-- What is listed for the numbered files, without the numbers. -/
theorem flatMap_numberedFiles_map {α β : Type} (s : FileSet) (list : Schema.File → List α)
    (g : α → β) :
    ((numberedFiles s).flatMap (fun file => (list file.2).map (file.1, ·))).map (fun x => g x.2) =
      s.files.flatMap fun f => (list f).map g := by
  conv_rhs => rw [← numberedFiles_map_snd s, List.flatMap_map]
  rw [List.map_flatMap]
  simp only [List.map_map]
  rfl

/-- The names that the steps declare are the full names of the set. -/
theorem stepsOf_names_perm (s : FileSet) : ((stepsOf s).map Step.fullName).Perm s.fullNames := by
  have hm : (messagesOf (stepsOf s)).map (·.fullName) = s.files.flatMap (·.messageNames) := by
    have h := congrArg (List.map (·.2.1)) (messagesOf_stepsOf_map s)
    rw [List.map_map, List.map_map] at h
    exact h.trans (flatMap_numberedFiles_map s Schema.File.allMessages fun x =>
      joinScope x.1 x.2.name)
  have he : ((enumsOf (stepsOf s)).map (·.fullName)).Perm (s.files.flatMap (·.enumNames)) := by
    have h := (enumsOf_stepsOf_perm s).map (·.2.1)
    rw [List.map_map, List.map_map] at h
    exact h.trans (.of_eq (flatMap_numberedFiles_map s Schema.File.allEnums fun x =>
      joinScope x.1 x.2.name))
  calc ((stepsOf s).map Step.fullName).Perm _ := (names_perm_steps _).symm
    List.Perm _ _ := hm ▸ he.append_left _
    List.Perm _ _ := List.flatMap_append_perm _ _ _

/-! ## Where a step stands -/

/-- The place of a declaration: the top of its file, where the scope is the package, or a message of
the same file that is among `before`, where the scope is the full name of that message. -/
def PlacedAt (s : FileSet) (before : List DeclaredMessage) (file : Nat) (parent : Option Nat)
    (scope : String) : Prop :=
  match parent with
  | none => ∃ f, s.files[file]? = some f ∧ f.package = scope
  | some j => ∃ m, before[j]? = some m ∧ m.file = file ∧ m.fullName = scope

/-- A step has a place, and its full name is its name in the scope of the place. -/
def Step.Placed (s : FileSet) (before : List DeclaredMessage) : Step → Prop
  | .message m => ∃ scope, PlacedAt s before m.file m.parent scope ∧
      m.fullName = joinScope scope m.raw.name
  | .enum e => ∃ scope, PlacedAt s before e.file e.parent scope ∧
      e.fullName = joinScope scope e.raw.name

/-- Each of the steps has a place when the steps before it have been taken. -/
def AllPlaced (s : FileSet) : List DeclaredMessage → List Step → Prop
  | _, [] => True
  | before, st :: rest => st.Placed s before ∧ AllPlaced s (before ++ messagesOf [st]) rest

section
variable {s : FileSet} {before : List DeclaredMessage} {file : Nat} {parent : Option Nat}
  {scope : String}

/-- More declarations take no place away. -/
theorem PlacedAt.append (h : PlacedAt s before file parent scope) (more : List DeclaredMessage) :
    PlacedAt s (before ++ more) file parent scope := by
  cases parent with
  | none => exact h
  | some j =>
    obtain ⟨m, hm, hfile, hname⟩ := h
    refine ⟨m, ?_, hfile, hname⟩
    rw [List.getElem?_append_left (List.getElem?_eq_some_iff.1 hm).1, hm]

/-- A step keeps its place when more is declared. -/
theorem Step.Placed.append {st : Step} (h : st.Placed s before) (more : List DeclaredMessage) :
    st.Placed s (before ++ more) := by
  cases st with
  | message m | enum m =>
    obtain ⟨scope, hp, hname⟩ := h
    exact ⟨scope, hp.append more, hname⟩

/-- The steps of two parts have their places one after the other. -/
theorem allPlaced_append {a b : List Step} :
    AllPlaced s before (a ++ b) ↔
      AllPlaced s before a ∧ AllPlaced s (before ++ messagesOf a) b := by
  induction a generalizing before with
  | nil => simp [AllPlaced]
  | cons st rest ih =>
    have hcons : messagesOf (st :: rest) = messagesOf [st] ++ messagesOf rest := by
      rw [← messagesOf_append]; rfl
    rw [List.cons_append, AllPlaced, AllPlaced, ih, hcons, List.append_assoc, and_assoc]

/-- Enums in one place have that place. -/
theorem allPlaced_enumEntries (h : PlacedAt s before file parent scope) (es : List Schema.Enum) :
    AllPlaced s before ((enumEntries file parent scope es).map .enum) := by
  induction es with
  | nil => trivial
  | cons e rest ih =>
    refine ⟨⟨scope, h, rfl⟩, ?_⟩
    rw [messagesOf_enum, messagesOf_nil, List.append_nil]
    exact ih

mutual

/-- The steps of a message have places when the message has one. -/
theorem allPlaced_messageSteps {before : List DeclaredMessage} {file : Nat}
    {parent : Option Nat} {scope : String} : ∀ m : Schema.Message,
      PlacedAt s before file parent scope →
        AllPlaced s before (messageSteps file parent scope before.length m)
  | ⟨name, line, fields, messages, enums⟩, h => by
    rw [messageSteps]
    refine ⟨⟨scope, h, rfl⟩, ?_⟩
    let own : DeclaredMessage :=
      ⟨joinScope scope name, file, parent, ⟨name, line, fields, messages, enums⟩⟩
    have hin : PlacedAt s (before ++ [own]) file (some before.length) (joinScope scope name) :=
      ⟨own, by simp, rfl, rfl⟩
    refine allPlaced_append.2 ⟨?_, allPlaced_enumEntries (hin.append _) enums⟩
    have ih := allPlaced_messagesSteps messages hin
    rwa [List.length_append, List.length_singleton] at ih

/-- The steps of messages in one place have places. -/
theorem allPlaced_messagesSteps {before : List DeclaredMessage} {file : Nat}
    {parent : Option Nat} {scope : String} : ∀ ms : List Schema.Message,
      PlacedAt s before file parent scope →
        AllPlaced s before (messagesSteps file parent scope before.length ms)
  | [], _ => by rw [messagesSteps]; trivial
  | m :: rest, h => by
    rw [messagesSteps]
    refine allPlaced_append.2 ⟨allPlaced_messageSteps m h, ?_⟩
    have ih := allPlaced_messagesSteps rest
      (h.append (messagesOf (messageSteps file parent scope before.length m)))
    rwa [List.length_append] at ih

end

/-- The steps of a file have places. -/
theorem allPlaced_fileSteps {k : Nat} {f : Schema.File} (h : s.files[k]? = some f) :
    AllPlaced s before (fileSteps before.length (k, f)) := by
  have htop : PlacedAt s before k none f.package := ⟨f, h, rfl⟩
  exact allPlaced_append.2
    ⟨allPlaced_messagesSteps f.messages htop, allPlaced_enumEntries (htop.append _) f.enums⟩

/-- The steps of files have places. -/
theorem allPlaced_filesSteps {files : List (Nat × Schema.File)}
    (h : ∀ file ∈ files, s.files[file.1]? = some file.2) :
    AllPlaced s before (filesSteps before.length files) := by
  induction files generalizing before with
  | nil => trivial
  | cons file rest ih =>
    rw [filesSteps]
    refine allPlaced_append.2 ⟨allPlaced_fileSteps (h file List.mem_cons_self), ?_⟩
    rw [← List.length_append]
    exact ih fun file hfile => h file (List.mem_cons_of_mem _ hfile)

/-- The steps of a set have places. -/
theorem allPlaced_stepsOf (s : FileSet) : AllPlaced s [] (stepsOf s) :=
  allPlaced_filesSteps fun _ hfile => mem_numberedFiles.1 hfile

/-- A message has its place among the messages that are declared before it. -/
theorem AllPlaced.message {steps : List Step} (h : AllPlaced s before steps) {i : Nat}
    {m : DeclaredMessage} (hm : (messagesOf steps)[i]? = some m) :
    (Step.message m).Placed s (before ++ (messagesOf steps).take i) := by
  induction steps generalizing before i with
  | nil => cases hm
  | cons st rest ih =>
    obtain ⟨hst, hrest⟩ := h
    cases st with
    | enum e =>
      rw [messagesOf_enum, messagesOf_nil, List.append_nil] at hrest
      exact ih hrest hm
    | message m₀ =>
      cases i with
      | zero =>
        cases hm
        simpa using hst
      | succ i =>
        have := ih hrest hm
        simpa using this

/-- An enum has its place among all messages. -/
theorem AllPlaced.enum {steps : List Step} (h : AllPlaced s before steps) {e : DeclaredEnum}
    (he : e ∈ enumsOf steps) : (Step.enum e).Placed s (before ++ messagesOf steps) := by
  induction steps generalizing before with
  | nil => cases he
  | cons st rest ih =>
    obtain ⟨hst, hrest⟩ := h
    cases st with
    | message m =>
      have := ih hrest he
      simpa using this
    | enum e₀ =>
      rw [messagesOf_enum, messagesOf_nil, List.append_nil] at hrest
      rcases List.mem_cons.1 he with rfl | he
      · exact hst.append _
      · exact ih hrest he

end

/-! ## The declarations of a set -/

section
variable {s : FileSet} {d : Declarations}

section
variable {α β : Type} {entries : List β} {place : β → Nat × String × α}
  {listed : Schema.File → List (String × α)} {named : α → String}

/-- Entries that come from the outline, up to order, are what the files declare. -/
theorem exists_entry_iff
    (h : (entries.map place).Perm
      (((numberedFiles s).flatMap fun file => (listed file.2).map (file.1, ·)).map
        fun x => (x.1, joinScope x.2.1 (named x.2.2), x.2.2))) {k : Nat} {name : String} {raw : α} :
    (∃ e ∈ entries, place e = (k, name, raw)) ↔
      ∃ f, s.files[k]? = some f ∧ ∃ scope, (scope, raw) ∈ listed f ∧
        name = joinScope scope (named raw) := by
  rw [← List.mem_map, h.mem_iff, List.mem_map]
  constructor
  · rintro ⟨⟨k', scope, raw'⟩, hx, he⟩
    cases he
    obtain ⟨f, hf, hx⟩ := mem_flatMap_numberedFiles.1 hx
    exact ⟨f, hf, scope, hx, rfl⟩
  · rintro ⟨f, hf, scope, hx, rfl⟩
    exact ⟨(k, scope, raw), mem_flatMap_numberedFiles.2 ⟨f, hf, hx⟩, rfl⟩

/-- The names of entries that come from the outline are the full names in the files. -/
theorem exists_entry_name_iff
    (h : (entries.map place).Perm
      (((numberedFiles s).flatMap fun file => (listed file.2).map (file.1, ·)).map
        fun x => (x.1, joinScope x.2.1 (named x.2.2), x.2.2))) {sees : Nat → Prop} {name : String} :
    (∃ e ∈ entries, (place e).2.1 = name ∧ sees (place e).1) ↔
      ∃ k f, sees k ∧ s.files[k]? = some f ∧
        name ∈ (listed f).map fun x => joinScope x.1 (named x.2) := by
  constructor
  · rintro ⟨e, he, rfl, hs⟩
    obtain ⟨f, hf, scope, hx, hname⟩ := (exists_entry_iff h).1 ⟨e, he, rfl⟩
    exact ⟨_, f, hs, hf, List.mem_map.2 ⟨_, hx, hname.symm⟩⟩
  · rintro ⟨k, f, hs, hf, hn⟩
    obtain ⟨⟨scope, raw⟩, hx, rfl⟩ := List.mem_map.1 hn
    obtain ⟨e, he, hp⟩ := (exists_entry_iff h).2 ⟨f, hf, scope, hx, rfl⟩
    exact ⟨e, he, by rw [hp], by rw [hp]; exact hs⟩

end

/-- A declared message is one of the outline of its file. -/
theorem Declared.mem_allMessages (h : Declared s d) {m : DeclaredMessage} (hm : m ∈ d.messages) :
    ∃ f, s.files[m.file]? = some f ∧ ∃ scope, (scope, m.raw) ∈ f.allMessages ∧
      m.fullName = joinScope scope m.raw.name :=
  (exists_entry_iff (.of_eq (messagesOf_stepsOf_map s))).1 ⟨m, h.messages ▸ hm, rfl⟩

/-- A declared enum is one of the outline of its file. -/
theorem Declared.mem_allEnums (h : Declared s d) {e : DeclaredEnum} (he : e ∈ d.enums) :
    ∃ f, s.files[e.file]? = some f ∧ ∃ scope, (scope, e.raw) ∈ f.allEnums ∧
      e.fullName = joinScope scope e.raw.name :=
  (exists_entry_iff (enumsOf_stepsOf_perm s)).1 ⟨e, h.enums ▸ he, rfl⟩

/-- The full names of declared messages are those in the files. -/
theorem Declared.exists_message_iff (h : Declared s d) {sees : Nat → Prop} {name : String} :
    (∃ m ∈ d.messages, m.fullName = name ∧ sees m.file) ↔
      ∃ k f, sees k ∧ s.files[k]? = some f ∧ name ∈ f.messageNames := by
  rw [h.messages]
  exact exists_entry_name_iff (.of_eq (messagesOf_stepsOf_map s))

/-- The full names of declared enums are those in the files. -/
theorem Declared.exists_enum_iff (h : Declared s d) {sees : Nat → Prop} {name : String} :
    (∃ e ∈ d.enums, e.fullName = name ∧ sees e.file) ↔
      ∃ k f, sees k ∧ s.files[k]? = some f ∧ name ∈ f.enumNames := by
  rw [h.enums]
  exact exists_entry_name_iff (enumsOf_stepsOf_perm s)

/-- The name of a declared message is one of the names of the set. -/
theorem Declared.message_mem_names (h : Declared s d) {m : DeclaredMessage}
    (hm : m ∈ d.messages) : m.raw.name ∈ s.declaredNames := by
  obtain ⟨f, hf, scope, hx, -⟩ := h.mem_allMessages hm
  exact List.mem_flatMap.2 ⟨f, List.mem_of_getElem? hf,
    List.mem_append_left _ (List.mem_map.2 ⟨_, hx, rfl⟩)⟩

/-- The name of a declared enum is one of the names of the set. -/
theorem Declared.enum_mem_names (h : Declared s d) {e : DeclaredEnum} (he : e ∈ d.enums) :
    e.raw.name ∈ s.declaredNames := by
  obtain ⟨f, hf, scope, hx, -⟩ := h.mem_allEnums he
  exact List.mem_flatMap.2 ⟨f, List.mem_of_getElem? hf,
    List.mem_append_right _ (List.mem_map.2 ⟨_, hx, rfl⟩)⟩

/-- A declared message stands at the top of its file, or in a message that comes before it. -/
theorem Declared.message_placed (h : Declared s d) {i : Nat} {m : DeclaredMessage}
    (hm : d.messages[i]? = some m) : (Step.message m).Placed s (d.messages.take i) := by
  rw [h.messages] at hm ⊢
  simpa using (allPlaced_stepsOf s).message hm

/-- A declared enum stands at the top of its file, or in a message. -/
theorem Declared.enum_placed (h : Declared s d) {e : DeclaredEnum} (he : e ∈ d.enums) :
    (Step.enum e).Placed s d.messages := by
  rw [h.enums] at he
  rw [h.messages]
  simpa using (allPlaced_stepsOf s).enum he

/-- The parent of a message comes before it, lies in the same file and gives it its scope. -/
theorem Declared.message_parent (h : Declared s d) {i j : Nat} {m : DeclaredMessage}
    (hm : d.messages[i]? = some m) (hp : m.parent = some j) :
    j < i ∧ ∃ outer, d.messages[j]? = some outer ∧ outer.file = m.file ∧
      m.fullName = joinScope outer.fullName m.raw.name := by
  obtain ⟨scope, hplace, hname⟩ := h.message_placed hm
  rw [hp] at hplace
  obtain ⟨outer, ho, hfile, rfl⟩ := hplace
  rw [List.getElem?_take] at ho
  split at ho
  · rename_i hj
    exact ⟨hj, outer, ho, hfile, hname⟩
  · cases ho

/-- The parent of an enum lies in the same file and gives it its scope. -/
theorem Declared.enum_parent (h : Declared s d) {j : Nat} {e : DeclaredEnum} (he : e ∈ d.enums)
    (hp : e.parent = some j) : ∃ outer, d.messages[j]? = some outer ∧ outer.file = e.file ∧
      e.fullName = joinScope outer.fullName e.raw.name := by
  obtain ⟨scope, hplace, hname⟩ := h.enum_placed he
  rw [hp] at hplace
  obtain ⟨outer, ho, hfile, rfl⟩ := hplace
  exact ⟨outer, ho, hfile, hname⟩

/-- At the top of a file the package is the scope. -/
theorem Declared.message_top (h : Declared s d) {i : Nat} {m : DeclaredMessage}
    (hm : d.messages[i]? = some m) (hp : m.parent = none) :
    ∃ f, s.files[m.file]? = some f ∧ m.fullName = joinScope f.package m.raw.name := by
  obtain ⟨scope, hplace, hname⟩ := h.message_placed hm
  rw [hp] at hplace
  obtain ⟨f, hf, rfl⟩ := hplace
  exact ⟨f, hf, hname⟩

/-- At the top of a file the package is the scope. -/
theorem Declared.enum_top (h : Declared s d) {e : DeclaredEnum} (he : e ∈ d.enums)
    (hp : e.parent = none) :
    ∃ f, s.files[e.file]? = some f ∧ e.fullName = joinScope f.package e.raw.name := by
  obtain ⟨scope, hplace, hname⟩ := h.enum_placed he
  rw [hp] at hplace
  obtain ⟨f, hf, rfl⟩ := hplace
  exact ⟨f, hf, hname⟩

end

end ProtoStub.Program
