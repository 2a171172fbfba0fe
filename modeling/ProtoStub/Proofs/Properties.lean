import ProtoStub.Token.Lexer
import ProtoStub.Proofs.ClassTrees
import ProtoStub.Proofs.Cutting
import ProtoStub.Proofs.Letters
import Mathlib.Tactic.IntervalCases

/-!
# Names of properties

A field has two names in the output: the property in Pascal case and the wire name in camel case,
or, in the header message, as it is declared. Only the names of properties are compared, without
regard to letter case. In an ASCII name the two forms differ in case only (`foldCase_pascalCase`),
and the suffix of a property depends on its folded name alone. So fields with the same wire name
have the same property (`foldCase_propertyName_of_jsonName`), and what is written has distinct wire
names too (`emitted_names_distinct`).

The suffix keeps a property apart from its class and the types nested in it, unless the longer name
is taken as well (`foldCase_propertyName_mem_iff`). It is not looked at again, so such a class is
written with a property that is named like one of its types (`properties_apart_iff`,
`property_named_like_class`).
-/

namespace ProtoStub.Text

/-- Classes that agree on a text cut it alike. -/
theorem pieces_congr {p q : Char → Bool} {cs : List Char} (h : ∀ c ∈ cs, p c = q c) :
    pieces p cs = pieces q cs := by
  induction cs with
  | nil => rfl
  | cons c cs ih =>
    rw [pieces, pieces, h c List.mem_cons_self, ih fun d hd => h d (List.mem_cons_of_mem _ hd)]

end ProtoStub.Text

namespace ProtoStub

open Text
open VisualBasic (foldCase propertyName)

/-- The name is made of ASCII characters that names are made of. -/
def IsAsciiWord (name : String) : Prop :=
  ∀ c ∈ name.toList, continuesIdent c = true ∧ c.toNat < 128

instance (name : String) : Decidable (IsAsciiWord name) :=
  decidable_of_iff (name.toList.all fun c => continuesIdent c && c.toNat < 128)
    (by simp [IsAsciiWord])

/-! ## Two forms of a name -/

/-- Words whose first letters change case are the same words without regard to case. -/
theorem map_toLower_capitalize {word : List Char} (h : ∀ c ∈ word, c.toNat < 128) :
    (capitalize word).map toLower = word.map toLower := by
  cases word with
  | nil => rfl
  | cons c cs =>
    rw [capitalize, List.map_cons, List.map_cons, toLower_toUpper (h c List.mem_cons_self)]

theorem map_toLower_decapitalize {word : List Char} (h : ∀ c ∈ word, c.toNat < 128) :
    (decapitalize word).map toLower = word.map toLower := by
  cases word with
  | nil => rfl
  | cons c cs =>
    rw [decapitalize, List.map_cons, List.map_cons, toLower_toLower (h c List.mem_cons_self)]

theorem map_toLower_flatMap_capitalize {words : List (List Char)}
    (h : ∀ word ∈ words, ∀ c ∈ word, c.toNat < 128) :
    (words.flatMap capitalize).map toLower = words.flatten.map toLower := by
  induction words with
  | nil => rfl
  | cons word rest ih =>
    obtain ⟨hword, hrest⟩ := List.forall_mem_cons.1 h
    rw [List.flatMap_cons, List.flatten_cons, List.map_append, List.map_append,
      map_toLower_capitalize hword, ih hrest]

theorem map_toLower_camelWords {words : List (List Char)}
    (h : ∀ word ∈ words, ∀ c ∈ word, c.toNat < 128) :
    (camelWords words).map toLower = words.flatten.map toLower := by
  cases words with
  | nil => rfl
  | cons word rest =>
    obtain ⟨hword, hrest⟩ := List.forall_mem_cons.1 h
    rw [camelWords, List.flatten_cons, List.map_append, List.map_append,
      map_toLower_decapitalize hword, map_toLower_flatMap_capitalize hrest]

/-- A dot is no mark in an ASCII word. -/
theorem IsAsciiWord.fields_eq {name : String} (h : IsAsciiWord name) :
    fields (fun c => isWordMark c || c == '.') name.toList = wordsOf name.toList := by
  have hagree : ∀ c ∈ name.toList, (isWordMark c || c == '.') = isWordMark c := by
    intro c hc
    have hdot : c ≠ '.' := by
      rintro rfl
      exact absurd (h '.' hc).1 (by decide)
    simp [hdot]
  rw [wordsOf, fields, fields, pieces_congr hagree]

/-- The two forms of an ASCII word differ in letter case only. -/
theorem foldCase_pascalCase {name : String} (h : IsAsciiWord name) :
    foldCase (pascalCase name) = foldCase (camelCase name) := by
  have hwords : ∀ word ∈ wordsOf name.toList, ∀ c ∈ word, c.toNat < 128 := fun word hword c hc =>
    (h c (mem_of_mem_pieces (List.mem_filter.1 hword).1 hc).1).2
  rw [foldCase, foldCase, pascalCase, camelCase, String.toList_ofList, String.toList_ofList,
    h.fields_eq, map_toLower_flatMap_capitalize hwords, map_toLower_camelWords hwords]

theorem foldCase_append (a b : String) : foldCase (a ++ b) = foldCase a ++ foldCase b := by
  rw [foldCase, foldCase, foldCase, String.toList_append, List.map_append, String.ofList_append]

/-- The folded name of a property depends on the folded name in Pascal case alone. -/
theorem foldCase_propertyName_congr {taken : List String} {a b : String}
    (h : foldCase (pascalCase a) = foldCase (pascalCase b)) :
    foldCase (propertyName taken a) = foldCase (propertyName taken b) := by
  simp only [propertyName, h]
  split
  · rw [foldCase_append, foldCase_append, h]
  · exact h

/-- Fields with the same wire name have the same property. -/
theorem foldCase_propertyName_of_jsonName {taken : List String} {message a b : String}
    (ha : IsAsciiWord a) (hb : IsAsciiWord b) (h : jsonName message a = jsonName message b) :
    foldCase (propertyName taken a) = foldCase (propertyName taken b) := by
  rw [jsonName, jsonName] at h
  split at h
  · rw [h]
  · refine foldCase_propertyName_congr ?_
    rw [foldCase_pascalCase ha, foldCase_pascalCase hb, h]

/-- The property of a field has a taken name exactly when the name is taken both with and without
the suffix. -/
theorem foldCase_propertyName_mem_iff {taken : List String} {field : String} :
    foldCase (propertyName taken field) ∈ taken ↔
      foldCase (pascalCase field) ∈ taken ∧ foldCase (pascalCase field ++ "Value") ∈ taken := by
  simp only [propertyName, List.contains_iff_mem]
  split
  · rename_i htaken
    exact ⟨fun hmem => ⟨htaken, hmem⟩, fun hmem => hmem.2⟩
  · rename_i hfree
    exact ⟨fun hmem => absurd hmem hfree, fun hmem => absurd hmem.1 hfree⟩

/-- The wire name of a field is its name in the form that the message calls for. -/
theorem Program.Built.jsonName_eq {s : Schema.FileSet} {options : Program.BuildOptions}
    {d : Program.Declarations} {p : Program} (h : Program.Built s options d p) {i : Nat}
    {f : Program.Field} (hf : f ∈ (p.message i).fields) :
    p.message i ∈ p.messages ∧ f.jsonName = jsonName (p.message i).name f.name := by
  cases hm : p.messages[i]? with
  | none =>
    rw [Program.message_of_getElem?_none hm] at hf
    cases hf
  | some m =>
    obtain ⟨x, fields, -, rfl, hr⟩ := h.getElem?_message hm
    rw [Program.message_of_getElem? hm] at hf ⊢
    obtain ⟨-, -, -, new, hnew, rfl⟩ := Program.resolveFields_eq_ok_iff.1 hr
    obtain ⟨n, hn⟩ := List.getElem?_of_mem hf
    obtain ⟨raw, -, -, he⟩ := Program.forall₂_getElem? hnew.flip hn
    refine ⟨List.mem_of_getElem? hm, ?_⟩
    rw [he]
    rfl

end ProtoStub

namespace ProtoStub.VisualBasic

open Program (Built Declarations BuildOptions build exists_built)
open Schema (FileSet)

/-! ## Names in a class -/

/-- The names that no property of the class should have: its own, and those of the classes and enums
in it. -/
def ClassTree.typeNames (c : ClassTree) : List String :=
  c.name :: c.classes.map (·.name) ++ c.enums.map (·.name)

/-- No property is named like the class or a type in it, without regard to letter case. -/
def ClassTree.Apart (c : ClassTree) : Prop :=
  ∀ q ∈ c.properties, foldCase q.name ∉ c.typeNames.map foldCase

section
variable {s : FileSet} {options : BuildOptions} {d : Declarations} {p : Program} {file i : Nat}
  {c : ClassTree}

theorem ClassTree.Describes.name_eq (h : c.Describes p file i) : c.name = (p.message i).name := by
  cases h with
  | mk hname _ _ _ => exact hname

/-- The properties of a class are those of the fields of its message. -/
theorem ClassTree.Describes.properties_eq (h : c.Describes p file i) :
    List.Forall₂ (Property.Describes p file i) (p.message i).fields c.properties := by
  cases h with
  | mk _ hproperties _ _ => exact hproperties

/-- The names of a class and its types are those that its message takes. -/
theorem ClassTree.Describes.typeNames_eq (h : c.Describes p file i) :
    c.typeNames.map foldCase = takenNames p (p.message i) := by
  cases h with
  | mk hname _ henums hclasses =>
    have hnames : c.classes.map (·.name) = (p.message i).messages.map fun n => (p.message n).name :=
      (Program.map_eq_of_forall₂ hclasses fun n x hx => hx.name_eq.symm).symm
    simp [ClassTree.typeNames, takenNames, hname, henums, hnames, Function.comp_def]

/-- The properties of a class have the wire names of the fields. -/
theorem ClassTree.Describes.wireNames_eq (h : c.Describes p file i) :
    c.properties.map (·.wireName) = (p.message i).fields.map (·.jsonName) := by
  refine (Program.map_eq_of_forall₂ h.properties_eq ?_).symm
  rintro f q ⟨type, -, rfl⟩
  rfl

/-- A class keeps its properties apart from its types exactly when no field has a name that is taken
with and without the suffix. -/
theorem ClassTree.Describes.apart_iff (h : c.Describes p file i) : c.Apart ↔
    ∀ f ∈ (p.message i).fields, foldCase (pascalCase f.name) ∈ c.typeNames.map foldCase →
      foldCase (pascalCase f.name ++ "Value") ∉ c.typeNames.map foldCase := by
  have hnames : c.properties.map (·.name) =
      (p.message i).fields.map fun f => propertyName (takenNames p (p.message i)) f.name := by
    refine (Program.map_eq_of_forall₂ h.properties_eq ?_).symm
    rintro f q ⟨type, -, rfl⟩
    exact propertyOf_name.symm
  calc c.Apart
      ↔ ∀ name ∈ c.properties.map (·.name), foldCase name ∉ takenNames p (p.message i) := by
        rw [ClassTree.Apart, h.typeNames_eq, List.forall_mem_map]
    _ ↔ ∀ f ∈ (p.message i).fields, ¬ (foldCase (pascalCase f.name) ∈ takenNames p (p.message i) ∧
          foldCase (pascalCase f.name ++ "Value") ∈ takenNames p (p.message i)) := by
        rw [hnames, List.forall_mem_map]
        simp only [foldCase_propertyName_mem_iff]
    _ ↔ _ := by simp only [h.typeNames_eq, not_and]

/-- In a class with distinct properties the wire names are distinct, when the fields of the program
have ASCII names. -/
theorem ClassTree.Describes.nodup_wireNames (h : c.Describes p file i) (hb : Built s options d p)
    (hfields : ∀ m ∈ p.messages, ∀ f ∈ m.fields, IsAsciiWord f.name)
    (hdistinct : c.DistinctProperties) : (c.properties.map (·.wireName)).Nodup := by
  have hfield : ∀ q ∈ c.properties, ∃ name, IsAsciiWord name ∧
      q.name = propertyName (takenNames p (p.message i)) name ∧
      q.wireName = jsonName (p.message i).name name := by
    intro q hq
    obtain ⟨n, hn⟩ := List.getElem?_of_mem hq
    obtain ⟨f, hf, type, -, rfl⟩ := Program.forall₂_getElem? h.properties_eq.flip hn
    obtain ⟨hmem, hjson⟩ := hb.jsonName_eq (List.mem_of_getElem? hf)
    exact ⟨f.name, hfields _ hmem f (List.mem_of_getElem? hf), propertyOf_name, hjson⟩
  -- Two properties with one wire name would have one folded name.
  rw [ClassTree.DistinctProperties, List.Nodup, List.pairwise_map] at hdistinct
  rw [List.Nodup, List.pairwise_map]
  refine hdistinct.imp_of_mem fun {q r} hq hr hne hwire => hne ?_
  obtain ⟨a, ha, hname, hjson⟩ := hfield q hq
  obtain ⟨b, hb, hname', hjson'⟩ := hfield r hr
  rw [hname, hname']
  exact foldCase_propertyName_of_jsonName ha hb (hjson.symm.trans (hwire.trans hjson'))

end

/-! ## Names that are written -/

/-- The names in the class are distinct: those of its properties without regard to letter case, and
their wire names, which are the names of the fields in camel case or, in the header message, as they
are declared. -/
structure NamesDistinct (p : Program) (k : Nat) (c : ClassTree) : Prop where
  properties : (c.properties.map fun q => foldCase q.name).Nodup
  wireNames : (c.properties.map (·.wireName)).Nodup
  message : ∃ i, c.Describes p k i ∧ c.properties.map (·.wireName) =
    (p.message i).fields.map fun f =>
      if (p.message i).name = headerMessage then f.name else camelCase f.name

/-- In every class that is emitted, at any depth, the names of properties and the wire names are
distinct, when the fields have ASCII names. -/
theorem emitted_names_distinct {s : FileSet} {options : BuildOptions} {p : Program}
    (h : build s options = .ok p)
    (hfields : ∀ m ∈ p.messages, ∀ f ∈ m.fields, IsAsciiWord f.name) {b : Backend} {k : Nat}
    {u : Unit} (hu : emit b p k = .ok (some u)) : ∃ cs, Shows p k u cs ∧
      ∀ c ∈ cs, ∀ x : ClassTree, x.Within c → NamesDistinct p k x := by
  obtain ⟨d, hb⟩ := exists_built h
  obtain ⟨cs, hshows, hdistinct⟩ := exists_shows hu
  refine ⟨cs, hshows, fun c hc x hx => ?_⟩
  obtain ⟨n, hn⟩ := List.getElem?_of_mem hc
  obtain ⟨top, -, htop⟩ := Program.forall₂_getElem? hshows.describes.flip hn
  obtain ⟨i, hi⟩ := htop.within hx
  refine ⟨hdistinct c hc x hx, hi.nodup_wireNames hb hfields (hdistinct c hc x hx), i, hi, ?_⟩
  rw [hi.wireNames_eq]
  refine List.map_congr_left fun f hf => ?_
  simp only [(hb.jsonName_eq hf).2, jsonName, beq_iff_eq]

/-- A message with a header in it, and with a field whose name is taken with and without suffix. -/
def itemSample : FileSet where
  files := [
    { path := "/p/item.proto", name := "item.proto"
      messages := [
        { name := "Item"
          fields := [{ name := "item", number := 1, type := "string" },
            { name := "user_id", number := 2, type := "int32" }]
          messages := [
            { name := "ItemValue" },
            { name := "msgHdr"
              fields := [{ name := "user_id", number := 1, type := "string" },
                { name := "_Key", number := 2, type := "string" }] }] }] }]

/-- The program of the sample. -/
def itemProgram : Program where
  files := [
    { path := "/p/item.proto", name := "item.proto", baseName := "item", namespaceName := "Item"
      messages := [0] }]
  messages := [
    { name := "Item", fullName := "Item", messages := [1, 2]
      fields := [⟨"item", "item", 1, false, .scalar .string⟩,
        ⟨"user_id", "userId", 2, false, .scalar .int32⟩] },
    { name := "ItemValue", fullName := "Item.ItemValue", parent := some 0 },
    { name := "msgHdr", fullName := "Item.msgHdr", parent := some 0
      fields := [⟨"user_id", "user_id", 1, false, .scalar .string⟩,
        ⟨"_Key", "_Key", 2, false, .scalar .string⟩] }]

theorem build_itemSample : build itemSample {} = .ok itemProgram :=
  Program.toOption_eq_some_iff.1 (by decide +kernel)

/-- The sample is emitted. -/
theorem exists_emit_itemProgram : ∃ u, emit { profile := .async } itemProgram 0 = .ok (some u) := by
  -- The recursion over classes does not evaluate, but the properties do.
  have hproperties : ∀ i < itemProgram.messages.length, ∀ margin, ∃ code,
      propertyLines itemProgram 0 i margin [] (itemProgram.message i).fields = .ok code := by
    intro i hi margin
    replace hi : i < 3 := hi
    interval_cases i <;> exact ⟨_, rfl⟩
  refine exists_emit rfl (fun i hi => ?_) (by simp [itemProgram, Program.file])
  obtain rfl : i = 0 := List.mem_singleton.1 hi
  exact exists_classOf (by decide) hproperties (by decide) indent

/-- In all three classes of the sample the names are distinct. -/
theorem itemSample_names_distinct : ∃ u, build itemSample {} = .ok itemProgram ∧
    (∀ m ∈ itemProgram.messages, ∀ f ∈ m.fields, IsAsciiWord f.name) ∧
    emit { profile := .async } itemProgram 0 = .ok (some u) ∧ ∃ cs, Shows itemProgram 0 u cs ∧
      ∀ c ∈ cs, ∀ x : ClassTree, x.Within c → NamesDistinct itemProgram 0 x := by
  obtain ⟨u, hu⟩ := exists_emit_itemProgram
  have hfields : ∀ m ∈ itemProgram.messages, ∀ f ∈ m.fields, IsAsciiWord f.name := by
    decide
  exact ⟨u, build_itemSample, hfields, hu, emitted_names_distinct build_itemSample hfields hu⟩

/-! ## Properties and types -/

/-- Every message of a file that is emitted has its class, and the properties of the class are named
unlike the class and the types in it exactly when no field has a name that is taken with and without
the suffix. -/
theorem properties_apart_iff {s : FileSet} {options : BuildOptions} {p : Program}
    (h : build s options = .ok p) {b : Backend} {k : Nat} {u : Unit}
    (hu : emit b p k = .ok (some u)) : ∃ cs, Shows p k u cs ∧
      ∀ i, p.IsDeclared (.message i) → (p.message i).file = k → ∃ c ∈ cs, ∃ x : ClassTree,
        x.Within c ∧ x.Describes p k i ∧ (x.Apart ↔ ∀ f ∈ (p.message i).fields,
          foldCase (pascalCase f.name) ∈ x.typeNames.map foldCase →
            foldCase (pascalCase f.name ++ "Value") ∉ x.typeNames.map foldCase) := by
  obtain ⟨d, hb⟩ := exists_built h
  obtain ⟨cs, hshows, -⟩ := exists_shows hu
  refine ⟨cs, hshows, fun i hi hfile => ?_⟩
  obtain ⟨c, hc, x, hx, hdescribes⟩ := hshows.exists_class hb hi hfile
  exact ⟨c, hc, x, hx, hdescribes, hdescribes.apart_iff⟩

/-- In the sample the header is apart from its types, and the message around it is not. -/
theorem itemSample_apart : ∃ u, build itemSample {} = .ok itemProgram ∧
    emit { profile := .async } itemProgram 0 = .ok (some u) ∧ ∃ cs, Shows itemProgram 0 u cs ∧
      (∃ c ∈ cs, ∃ x : ClassTree, x.Within c ∧ x.Describes itemProgram 0 2 ∧ x.Apart) ∧
      ∃ c ∈ cs, ∃ x : ClassTree, x.Within c ∧ x.Describes itemProgram 0 0 ∧ ¬ x.Apart := by
  obtain ⟨u, hu⟩ := exists_emit_itemProgram
  obtain ⟨cs, hshows, hall⟩ := properties_apart_iff build_itemSample hu
  refine ⟨u, build_itemSample, hu, cs, hshows, ?_, ?_⟩
  · obtain ⟨c, hc, x, hx, hdescribes, hapart⟩ := hall 2 (show 2 < 3 by decide) rfl
    refine ⟨c, hc, x, hx, hdescribes, hapart.2 ?_⟩
    rw [hdescribes.typeNames_eq]
    decide +kernel
  · obtain ⟨c, hc, x, hx, hdescribes, hapart⟩ := hall 0 (show 0 < 3 by decide) rfl
    refine ⟨c, hc, x, hx, hdescribes, fun hx => absurd (hapart.1 hx) ?_⟩
    rw [hdescribes.typeNames_eq]
    decide +kernel

/-- A field `item` of a message `Item` with a nested message `ItemValue` becomes a property with the
name of the nested class. -/
theorem property_named_like_class : ∃ u, build itemSample {} = .ok itemProgram ∧
    emit { profile := .async } itemProgram 0 = .ok (some u) ∧ ∃ cs, Shows itemProgram 0 u cs ∧
      ∃ c ∈ cs, c.Describes itemProgram 0 0 ∧
        ∃ q ∈ c.properties, q.name = "ItemValue" ∧ ∃ x ∈ c.classes, x.name = "ItemValue" := by
  obtain ⟨u, hu⟩ := exists_emit_itemProgram
  obtain ⟨cs, hshows, -⟩ := exists_shows hu
  obtain ⟨c, hc, hdescribes⟩ := Program.forall₂_getElem? hshows.describes (i := 0) rfl
  refine ⟨u, build_itemSample, hu, cs, hshows, c, List.mem_of_getElem? hc, hdescribes, ?_⟩
  cases hdescribes with
  | mk _ hproperties _ hclasses =>
    obtain ⟨q, hq, type, -, rfl⟩ := Program.forall₂_getElem? hproperties (i := 0) rfl
    obtain ⟨x, hx, hvalue⟩ := Program.forall₂_getElem? hclasses (i := 0) rfl
    refine ⟨_, List.mem_of_getElem? hq, ?_, x, List.mem_of_getElem? hx, hvalue.name_eq⟩
    rw [propertyOf_name]
    decide +kernel

end ProtoStub.VisualBasic
