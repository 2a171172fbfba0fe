import ProtoStub.VisualBasic.Unit
import ProtoStub.Proofs.Correspondence
import ProtoStub.Proofs.Nesting

/-!
# Classes as trees

The classes of a source file are written line by line. `ClassTree` is a class with everything that
stands in it, and `ClassTree.lines` writes it down. What is written for a message is such a tree
(`exists_classTree`): its properties are the fields of the message, and its enums and classes are
those nested in the message, all in order (`ClassTree.Describes`). Fields whose properties would
have the same name are refused, so in every class of the tree the names of properties are distinct
(`exists_properties`). A source file is written from one tree for each message at the top of its
file (`exists_shows`), and every message of the file has its class in one of them
(`Shows.exists_class`).
-/

namespace ProtoStub.VisualBasic

open Program (Built Declarations BuildOptions bind_eq_ok_iff exists_forall₂_iff mapM_eq_ok_iff)
open Schema (FileSet)

/-! ## Properties and classes -/

/-- A property with the wire name in its attribute. -/
structure Property where
  name : String
  wireName : String
  type : String
  deriving Repr, DecidableEq, Inhabited

/-- The lines of a property. -/
def Property.lines (margin : String) (q : Property) : List String :=
  [margin ++ "<JsonProperty(\"" ++ q.wireName ++ "\")>",
    margin ++ "Public Property " ++ escape q.name ++ " As " ++ q.type]

/-- A class with everything that stands in it. -/
structure ClassTree where
  name : String
  properties : List Property := []
  enums : List Program.Enum := []
  classes : List ClassTree := []
  deriving Repr, Inhabited

mutual

/-- The lines of a class. A blank line stands between neighbours in it. -/
def ClassTree.lines (margin : String) : ClassTree → List String
  | ⟨name, properties, enums, classes⟩ =>
    (margin ++ "Public Class " ++ escape name) ::
      separated false (properties.map (·.lines (margin ++ indent)) ++
        enums.map (enumLines · (margin ++ indent)) ++
        ClassTree.allLines (margin ++ indent) classes) ++
      [margin ++ "End Class"]

/-- The lines of classes, class by class. -/
def ClassTree.allLines (margin : String) : List ClassTree → List (List String)
  | [] => []
  | c :: cs => c.lines margin :: ClassTree.allLines margin cs

end

/-- The class is the other one, or stands in it at some depth. -/
inductive ClassTree.Within (c : ClassTree) : ClassTree → Prop
  | self : Within c c
  | nested {inner outer : ClassTree} (hmem : inner ∈ outer.classes) (h : Within c inner) :
    Within c outer

/-- What becomes of a field of the message `index` whose type is written as `type`. -/
def propertyOf (p : Program) (index : Nat) (f : Program.Field) (type : TypeText) : Property where
  name := propertyName (takenNames p (p.message index)) f.name
  wireName := f.jsonName
  type := if f.repeated then "List(Of " ++ type.text ++ ")" else type.text

/-- The property is what becomes of a field of the message `index` in the file `file`. -/
def Property.Describes (p : Program) (file index : Nat) (f : Program.Field) (q : Property) : Prop :=
  ∃ type, typeName p file (some index) f.type = .ok type ∧ q = propertyOf p index f type

/-- The class is what becomes of a message: its properties, enums and classes are the fields, enums
and messages in it. -/
inductive ClassTree.Describes (p : Program) (file : Nat) : Nat → ClassTree → Prop
  | mk {i : Nat} {c : ClassTree} (name : c.name = (p.message i).name)
    (properties : List.Forall₂ (Property.Describes p file i) (p.message i).fields c.properties)
    (enums : c.enums = (p.message i).enums.map p.enum)
    (classes : List.Forall₂ (Describes p file) (p.message i).messages c.classes) :
    Describes p file i c

/-- The unit is written from the classes, one for each message at the top of the file. -/
structure Shows (p : Program) (k : Nat) (u : Unit) (cs : List ClassTree) : Prop where
  blocks : ∃ body, u.body = some body ∧ body.blocks =
    ((p.file k).enums.map (fun i => enumLines (p.enum i) indent) ++
      cs.map (·.lines indent)).map textOfLines
  describes : List.Forall₂ (ClassTree.Describes p k) (p.file k).messages cs

/-- The names of properties are distinct without regard to letter case. -/
def ClassTree.DistinctProperties (c : ClassTree) : Prop :=
  (c.properties.map fun q => foldCase q.name).Nodup

theorem ClassTree.allLines_eq (margin : String) (cs : List ClassTree) :
    ClassTree.allLines margin cs = cs.map (·.lines margin) := by
  induction cs with
  | nil => rfl
  | cons c cs ih => rw [ClassTree.allLines, ih, List.map_cons]

theorem separated_append (started : Bool) (xs ys : List (List String)) :
    separated started (xs ++ ys) =
      separated started xs ++ separated (started || !xs.isEmpty) ys := by
  induction xs generalizing started with
  | nil => simp [separated]
  | cons x xs ih => simp [separated, ih]

theorem ClassTree.Within.trans {a b c : ClassTree} (hab : a.Within b) (hbc : b.Within c) :
    a.Within c := by
  induction hbc with
  | self => exact hab
  | nested hmem _ ih => exact .nested hmem ih

/-- What holds of a class and at every depth of the classes in it holds at every depth. -/
theorem ClassTree.forall_within {P : ClassTree → Prop} {c : ClassTree} (hc : P c)
    (hclasses : ∀ inner ∈ c.classes, ∀ x, x.Within inner → P x) : ∀ x, x.Within c → P x := by
  intro x hx
  cases hx with
  | self => exact hc
  | nested hmem h => exact hclasses _ hmem x h

section
variable {p : Program} {file index k : Nat} {margin : String} {code : Code}

@[simp] theorem propertyOf_name {f : Program.Field} {type : TypeText} :
    (propertyOf p index f type).name = propertyName (takenNames p (p.message index)) f.name := by
  simp only [propertyOf]

/-! ## What is written -/

/-- Properties that are written have distinct names, none of which was seen before. -/
theorem exists_properties {seen : List (String × String)} {fields : List Program.Field}
    (h : propertyLines p file index margin seen fields = .ok code) : ∃ qs,
      List.Forall₂ (Property.Describes p file index) fields qs ∧
      code.lines = separated (!seen.isEmpty) (qs.map (·.lines margin)) ∧
      (qs.map fun q => foldCase q.name).Nodup ∧
      ∀ q ∈ qs, foldCase q.name ∉ seen.map (·.1) := by
  -- `seen` grows by the name of each property, so what is fresh for the rest differs from it.
  induction fields generalizing seen code with
  | nil =>
    cases h
    exact ⟨[], .nil, rfl, .nil, by simp⟩
  | cons f rest ih =>
    simp only [propertyLines] at h
    split at h
    · cases h
    rename_i hnew
    split at h
    · cases h
    rename_i type htype
    split at h
    · cases h
    rename_i more hmore
    obtain ⟨qs, hqs, hlines, hnodup, hfresh⟩ := ih hmore
    cases h
    have hname : foldCase (propertyName (takenNames p (p.message index)) f.name) ∉
        seen.map (·.1) := by
      intro hmem
      obtain ⟨x, hx, he⟩ := List.mem_map.1 hmem
      exact absurd he.symm (by simpa using List.lookup_eq_none_iff.1 hnew x hx)
    refine ⟨propertyOf p index f type :: qs, .cons ⟨type, htype, rfl⟩ hqs, ?_, ?_, ?_⟩
    · have hblank : (if seen.isEmpty then [] else [""]) =
          if !seen.isEmpty then [""] else ([] : List String) := by
        cases seen <;> rfl
      simp only [hlines, hblank, List.map_cons, separated, List.isEmpty_cons, Bool.not_false,
        Property.lines, propertyOf]
    · rw [List.map_cons, List.nodup_cons]
      refine ⟨fun hmem => ?_, hnodup⟩
      obtain ⟨q, hq, he⟩ := List.mem_map.1 hmem
      have hseen := hfresh q hq
      simp [he] at hseen
    · refine List.forall_mem_cons.2 ⟨by rwa [propertyOf_name], fun q hq hmem => ?_⟩
      exact hfresh q hq (List.mem_cons_of_mem _ hmem)

theorem classesWithin_eq_mapM (depth : Nat) (indices : List Nat) :
    classesWithin p file depth margin indices = indices.mapM (classWithin p file depth margin) := by
  induction indices with
  | nil => rw [classesWithin]; rfl
  | cons i rest ih =>
    rw [classesWithin, List.mapM_cons, ih]
    cases classWithin p file depth margin i with
    | error e => rfl
    | ok c =>
      cases rest.mapM (classWithin p file depth margin) with
      | error e => rfl
      | ok cs => rfl

/-- A class is written when its properties and the classes in it are. -/
theorem classWithin_eq_ok_iff {depth : Nat} :
    classWithin p file (depth + 1) margin index = .ok code ↔ ∃ properties nested,
      propertyLines p file index (margin ++ indent) [] (p.message index).fields = .ok properties ∧
      List.Forall₂ (fun i c => classWithin p file depth (margin ++ indent) i = .ok c)
        (p.message index).messages nested ∧
      code = {
        lines := (margin ++ "Public Class " ++ escape (p.message index).name) ::
          properties.lines ++ separated (!(p.message index).fields.isEmpty)
            ((p.message index).enums.map (fun n => enumLines (p.enum n) (margin ++ indent)) ++
              nested.map (·.lines)) ++
          [margin ++ "End Class"]
        linq := properties.linq || nested.any (·.linq) } := by
  rw [classWithin]
  simp only [classesWithin_eq_mapM, ← mapM_eq_ok_iff]
  cases propertyLines p file index (margin ++ indent) [] (p.message index).fields with
  | error e => simp
  | ok properties =>
    cases (p.message index).messages.mapM (classWithin p file depth (margin ++ indent)) with
    | error e => simp
    | ok nested => simp [eq_comm]

/-- Where messages are nested in messages that stand before them, the class of a message is written
when the properties of all messages are. -/
theorem exists_classOf
    (hnested : ∀ i < p.messages.length, ∀ j ∈ (p.message i).messages, i < j ∧ j < p.messages.length)
    (hproperties : ∀ i < p.messages.length, ∀ margin, ∃ code,
      propertyLines p file i margin [] (p.message i).fields = .ok code)
    {i : Nat} (hi : i < p.messages.length) (margin : String) :
    ∃ code, classOf p file margin i = .ok code := by
  have hwithin : ∀ depth i margin, i < p.messages.length → p.messages.length - i ≤ depth →
      ∃ code, classWithin p file depth margin i = .ok code := by
    intro depth
    induction depth with
    | zero => omega
    | succ depth ih =>
      intro i margin hi hdepth
      have hinner : ∀ j ∈ (p.message i).messages, ∃ code,
          classWithin p file depth (margin ++ indent) j = .ok code := by
        intro j hj
        obtain ⟨hlt, hlength⟩ := hnested i hi j hj
        exact ih j _ hlength (by omega)
      obtain ⟨properties, hp⟩ := hproperties i hi (margin ++ indent)
      obtain ⟨nested, hn⟩ := exists_forall₂_iff.2 hinner
      exact ⟨_, classWithin_eq_ok_iff.2 ⟨properties, nested, hp, hn, rfl⟩⟩
  exact hwithin _ i margin hi (Nat.sub_le _ _)

/-- A file with declarations is emitted when its classes and its clients are. -/
theorem exists_emit {b : Backend} (hempty : (p.file file).isEmpty = false)
    (hclasses : ∀ i ∈ (p.file file).messages, ∃ code, classOf p file indent i = .ok code)
    (hclients : ∀ s ∈ (p.file file).services, ∃ c, clientOf p file b.profile s = .ok c) :
    ∃ u, emit b p file = .ok (some u) := by
  obtain ⟨classes, hclasses⟩ := exists_forall₂_iff.2 hclasses
  obtain ⟨clients, hclients⟩ := exists_forall₂_iff.2 hclients
  rw [emit]
  dsimp only
  rw [hempty, mapM_eq_ok_iff.2 hclasses, mapM_eq_ok_iff.2 hclients]
  exact ⟨_, rfl⟩

/-- What holds of single classes holds of a list of them. -/
theorem exists_classTrees {write : Nat → Except Error Code} {indices : List Nat}
    {codes : List Code}
    (ih : ∀ {i code}, write i = .ok code → ∃ c : ClassTree, c.Describes p file i ∧
      c.lines margin = code.lines ∧ ∀ x : ClassTree, x.Within c → x.DistinctProperties)
    (h : List.Forall₂ (fun i code => write i = .ok code) indices codes) : ∃ cs,
      List.Forall₂ (ClassTree.Describes p file) indices cs ∧
      cs.map (·.lines margin) = codes.map (·.lines) ∧
      ∀ c ∈ cs, ∀ x : ClassTree, x.Within c → x.DistinctProperties := by
  induction h with
  | nil => exact ⟨[], .nil, rfl, by simp⟩
  | cons hwrite _ ihs =>
    obtain ⟨c, hc, hlines, hdistinct⟩ := ih hwrite
    obtain ⟨cs, hcs, hall, hrest⟩ := ihs
    exact ⟨c :: cs, .cons hc hcs, by rw [List.map_cons, List.map_cons, hlines, hall],
      List.forall_mem_cons.2 ⟨hdistinct, hrest⟩⟩

/-- The lines of a class that is written are those of a tree that describes its message, with
distinct properties in each of its classes. -/
theorem exists_classTree {depth : Nat} (h : classWithin p file depth margin index = .ok code) :
    ∃ c : ClassTree, c.Describes p file index ∧ c.lines margin = code.lines ∧
      ∀ x : ClassTree, x.Within c → x.DistinctProperties := by
  induction depth generalizing margin index code with
  | zero => simp [classWithin] at h
  | succ depth ih =>
    obtain ⟨properties, nested, hproperties, hnested, rfl⟩ := classWithin_eq_ok_iff.1 h
    obtain ⟨qs, hqs, hlines, hnodup, -⟩ := exists_properties hproperties
    obtain ⟨cs, hcs, hwritten, hdistinct⟩ := exists_classTrees ih hnested
    refine ⟨⟨(p.message index).name, qs, (p.message index).enums.map p.enum, cs⟩,
      .mk rfl hqs rfl hcs, ?_, ClassTree.forall_within hnodup hdistinct⟩
    simp only [ClassTree.lines, ClassTree.allLines_eq, hwritten, hlines, List.append_assoc,
      separated_append false, List.map_map, List.isEmpty_map, Bool.false_or,
      ← Program.isEmpty_eq_of_forall₂ hqs, List.isEmpty_nil, Bool.not_true, List.cons_append]
    rfl

/-! ## Units -/

/-- A unit that is emitted is written from trees with distinct properties in each of their
classes. -/
theorem exists_shows {b : Backend} {u : Unit} (h : emit b p k = .ok (some u)) : ∃ cs,
    Shows p k u cs ∧ ∀ c ∈ cs, ∀ x : ClassTree, x.Within c → x.DistinctProperties := by
  rw [emit] at h
  dsimp only at h
  split at h
  · cases h
  obtain ⟨classes, hclasses, h⟩ := bind_eq_ok_iff.1 h
  obtain ⟨clients, -, h⟩ := bind_eq_ok_iff.1 h
  cases h
  obtain ⟨cs, hcs, hwritten, hdistinct⟩ :=
    exists_classTrees exists_classTree (mapM_eq_ok_iff.1 hclasses)
  exact ⟨cs, ⟨⟨_, rfl, by rw [hwritten]⟩, hcs⟩, hdistinct⟩

/-- The classes in a class that describes a message describe messages. -/
theorem ClassTree.Describes.within {i : Nat} {c x : ClassTree} (h : c.Describes p file i)
    (hx : x.Within c) : ∃ j, x.Describes p file j := by
  induction hx generalizing i with
  | self => exact ⟨i, h⟩
  | nested hmem _ ih =>
    cases h with
    | mk _ _ _ hclasses =>
      obtain ⟨n, hn⟩ := List.getElem?_of_mem hmem
      obtain ⟨j, -, hj⟩ := Program.forall₂_getElem? hclasses.flip hn
      exact ih hj

/-- Every message of the file has its class among those of the unit. -/
theorem Shows.exists_class {s : FileSet} {options : BuildOptions} {d : Declarations} {u : Unit}
    {cs : List ClassTree} (h : Shows p k u cs) (hb : Built s options d p) {i : Nat}
    (hi : p.IsDeclared (.message i)) (hfile : (p.message i).file = k) :
    ∃ c ∈ cs, ∃ x : ClassTree, x.Within c ∧ x.Describes p k i := by
  induction i using Nat.strongRecOn with
  | _ i ih =>
    cases hp : (p.message i).parent with
    | none =>
      have hmem : i ∈ (p.file k).messages := by
        have htop := hb.mem_topTypes.2 ⟨hi, hp, hfile⟩
        simpa [Program.topTypes] using htop
      obtain ⟨n, hn⟩ := List.getElem?_of_mem hmem
      obtain ⟨c, hc, hdescribes⟩ := Program.forall₂_getElem? h.describes hn
      exact ⟨c, List.mem_of_getElem? hc, c, .self, hdescribes⟩
    | some j =>
      obtain ⟨hj, hsame, -⟩ := hb.info_nested hi hp
      obtain ⟨c, hc, outer, hwithin, hdescribes⟩ :=
        ih j (hb.parent_lt i j hp) hj (hsame.symm.trans hfile)
      cases hdescribes with
      | mk _ _ _ hclasses =>
        have hmem : i ∈ (p.message j).messages := by
          have hmember := hb.mem_members.2 ⟨hi, hp⟩
          simpa [Program.members] using hmember
        obtain ⟨n, hn⟩ := List.getElem?_of_mem hmem
        obtain ⟨x, hx, hxi⟩ := Program.forall₂_getElem? hclasses hn
        exact ⟨c, hc, x, .trans (.nested (List.mem_of_getElem? hx) .self) hwithin, hxi⟩

end

end ProtoStub.VisualBasic
