import ProtoStub.Proofs.Arena
import ProtoStub.VisualBasic.Unit

/-!
# Output does not depend on numbers

Two programs may number the same messages and enums differently. `Corresponds` relates the numbers
of one to those of the other, for the files, messages and enums that both have: related messages
have the same names, related parents and related children, and so on. It does not speak of anything
else in the programs. Everything the names of types are made of goes along such a relation: chains
(`Corresponds.chain`), paths, and whether a name is captured (`Corresponds.shadowed_eq`). So a file
whose messages, fields and services are related (`SameFile`) has the same output in both programs
(`SameFile.emit_eq`). The classes of nested messages are the only place where the two runs differ in
more than numbers, since the bound on the depth is the number of all messages; `classWithin_eq` says
that either bound is large enough.
-/

namespace ProtoStub.Program

open VisualBasic

/-! ## Related parts -/

section
variable (F M E : Nat → Nat → Prop)

/-- The same type up to the numbers of messages and enums. -/
inductive SameType : TypeRef → TypeRef → Prop
  | scalar (w : Scalar) : SameType (.scalar w) (.scalar w)
  | wellKnown (w : String) : SameType (.wellKnown w) (.wellKnown w)
  | message {i j : Nat} (h : M i j) : SameType (.message i) (.message j)
  | enum {i j : Nat} (h : E i j) : SameType (.enum i) (.enum j)

/-- The same field up to numbers in its type. -/
structure SameField (a b : Field) : Prop where
  type : SameType M E a.type b.type
  rest : b = { a with type := b.type }

/-- The same procedure up to numbers in its types. -/
structure SameMethod (a b : Method) : Prop where
  input : SameType M E a.input b.input
  output : SameType M E a.output b.output
  rest : b = { a with input := b.input, output := b.output }

/-- The same service up to numbers in the types of its procedures. -/
structure SameService (a b : Service) : Prop where
  name : a.name = b.name
  methods : List.Forall₂ (SameMethod M E) a.methods b.methods

/-- The same message, apart from its fields, up to numbers. -/
structure SameMessage (a b : Message) : Prop where
  name : a.name = b.name
  fullName : a.fullName = b.fullName
  file : F a.file b.file
  parent : Option.Rel M a.parent b.parent
  messages : List.Forall₂ M a.messages b.messages
  enums : List.Forall₂ E a.enums b.enums

/-- The same enum up to numbers. -/
structure SameEnum (a b : Enum) : Prop where
  name : a.name = b.name
  values : a.values = b.values
  file : F a.file b.file
  parent : Option.Rel M a.parent b.parent

/-- The relations `F`, `M` and `E` lead from files, messages and enums of `p` to the same ones of
`q`. -/
structure Corresponds (p q : Program) : Prop where
  parent_left : ∀ i j, (p.message i).parent = some j → j < i
  parent_right : ∀ i j, (q.message i).parent = some j → j < i
  namespaceName : ∀ {k l}, F k l → (p.file k).namespaceName = (q.file l).namespaceName
  message_lt : ∀ {i j}, M i j → i < p.messages.length ∧ j < q.messages.length
  message_iff : ∀ {i j i' j'}, M i j → M i' j' → (i = i' ↔ j = j')
  message : ∀ {i j}, M i j → SameMessage F M E (p.message i) (q.message j)
  enum : ∀ {i j}, E i j → SameEnum F M (p.enum i) (q.enum j)

/-- The file `k` of `p` is the file `l` of `q`, with its messages related by `Own`. -/
structure SameFile (Own : Nat → Nat → Prop) (p q : Program) (k l : Nat) : Prop
    extends Corresponds F M E p q where
  name : (p.file k).name = (q.file l).name
  baseName : (p.file k).baseName = (q.file l).baseName
  relDir : (p.file k).relDir = (q.file l).relDir
  space : (p.file k).namespaceName = (q.file l).namespaceName
  messages : List.Forall₂ Own (p.file k).messages (q.file l).messages
  enums : List.Forall₂ E (p.file k).enums (q.file l).enums
  services : List.Forall₂ (SameService M E) (p.file k).services (q.file l).services
  own : ∀ {i j}, Own i j → M i j
  fields : ∀ {i j}, Own i j → List.Forall₂ (SameField M E) (p.message i).fields (q.message j).fields
  children : ∀ {i j}, Own i j → List.Forall₂ (fun c c' => Own c c' ∧ i < c ∧ j < c')
    (p.message i).messages (q.message j).messages

end

/-! ## Related lists -/

section
variable {α β γ : Type} {R : α → β → Prop} {xs : List α} {ys : List β}

/-- A test that agrees on related items is met by both of two related lists, or by neither. -/
theorem any_eq_of_forall₂ (h : List.Forall₂ R xs ys) {f : α → Bool} {g : β → Bool}
    (hfg : ∀ a b, R a b → f a = g b) : xs.any f = ys.any g := by
  have hmap := map_eq_of_forall₂ h hfg
  rw [← Function.id_comp f, ← Function.id_comp g, ← List.any_map, ← List.any_map, hmap]

/-- Of two related lists both are empty, or neither. -/
theorem isEmpty_eq_of_forall₂ (h : List.Forall₂ R xs ys) : xs.isEmpty = ys.isEmpty := by
  cases h with
  | nil => rfl
  | cons => rfl

/-- A computation that agrees on related items has the same result on related lists. -/
theorem mapM_eq_of_forall₂ {ε : Type} (h : List.Forall₂ R xs ys) {f : α → Except ε γ}
    {g : β → Except ε γ} (hfg : ∀ a b, R a b → f a = g b) : xs.mapM f = ys.mapM g := by
  induction h with
  | nil => rfl
  | cons hab _ ih => rw [List.mapM_cons, List.mapM_cons, hfg _ _ hab, ih]

/-- Related lists end in related items. -/
theorem getLast?_rel (h : List.Forall₂ R xs ys) : Option.Rel R xs.getLast? ys.getLast? := by
  rw [List.getLast?_eq_head?_reverse, List.getLast?_eq_head?_reverse]
  have hr := List.forall₂_reverse_iff.2 h
  generalize xs.reverse = xs at hr ⊢
  generalize ys.reverse = ys at hr ⊢
  cases hr with
  | nil => exact .none
  | cons hab _ => exact .some hab

end

/-! ## Names of types -/

namespace Corresponds

variable {F M E : Nat → Nat → Prop} {p q : Program}

/-- The chains of related messages are related. -/
theorem chain (h : Corresponds F M E p q) {i : Nat} :
    ∀ {j : Nat}, M i j → List.Forall₂ M (p.chain (some i)) (q.chain (some j)) := by
  induction i using Nat.strongRecOn with
  | ind i ih =>
    intro j hij
    rw [chain_some h.parent_left (h.message_lt hij).1,
      chain_some h.parent_right (h.message_lt hij).2]
    refine .cons hij ?_
    have hparent := (h.message hij).parent
    generalize hp : (p.message i).parent = a at hparent ⊢
    generalize (q.message j).parent = b at hparent ⊢
    cases hparent with
    | none => simp
    | some hab => exact ih _ (h.parent_left i _ hp) hab

/-- The chains from related parents are related. -/
theorem chain_of_rel (h : Corresponds F M E p q) {a b : Option Nat} (hab : Option.Rel M a b) :
    List.Forall₂ M (p.chain a) (q.chain b) := by
  cases hab with
  | none => simp
  | some hab => exact h.chain hab

/-- Related messages have the same path. -/
theorem messagePath_eq (h : Corresponds F M E p q) {i j : Nat} (hij : M i j) :
    p.messagePath i = q.messagePath j := by
  rw [messagePath, messagePath, pathOf, pathOf, List.map_reverse, List.map_reverse,
    map_eq_of_forall₂ (h.chain hij) fun a b hab => (h.message hab).name]

/-- Related enums have the same path. -/
theorem enumPath_eq (h : Corresponds F M E p q) {i j : Nat} (hij : E i j) :
    p.enumPath i = q.enumPath j := by
  have he := h.enum hij
  have hparent := he.parent
  simp only [enumPath]
  generalize (p.enum i).parent = a at hparent ⊢
  generalize (q.enum j).parent = b at hparent ⊢
  cases hparent with
  | none => exact he.name
  | some hab =>
    dsimp only
    rw [h.messagePath_eq hab, he.name]

/-- The same names are declared in related messages. -/
theorem declares_eq (h : Corresponds F M E p q) {i j : Nat} (hij : M i j) (name : String) :
    Message.declares p (p.message i) name = Message.declares q (q.message j) name := by
  have hm := h.message hij
  rw [Message.declares, Message.declares,
    any_eq_of_forall₂ hm.messages fun a b hab => by rw [(h.message hab).name],
    any_eq_of_forall₂ hm.enums fun a b hab => by rw [(h.enum hab).name]]

/-- The same names are captured inside related messages. -/
theorem shadowed_eq (h : Corresponds F M E p q) {name : String} {top top' : Option Nat}
    (htop : Option.Rel M top top') {i j : Nat} (hij : M i j) :
    p.shadowed name top i = q.shadowed name top' j := by
  rw [shadowed, shadowed]
  refine any_eq_of_forall₂ (h.chain hij) fun a b hab => ?_
  have hne : (top != some a) = (top' != some b) := by
    cases htop with
    | none => rfl
    | some hcd =>
      rw [Bool.eq_iff_iff, bne_iff_ne, bne_iff_ne]
      simp only [ne_eq, Option.some.injEq, h.message_iff hcd hab]
  dsimp only
  rw [h.declares_eq hab, (h.message hab).name, hne]

/-- Related types are named alike, from related places. -/
theorem qualify_eq (h : Corresponds F M E p q) {a b : TypeRef} (hab : SameType M E a b) {k l : Nat}
    (hspace : (p.file k).namespaceName = (q.file l).namespaceName) {i j : Option Nat}
    (hij : Option.Rel M i j) : p.qualify a k i = q.qualify b l j := by
  -- A target with the same path, a related file and a related top is named alike.
  have htarget : ∀ {t u : Target}, t.path = u.path → F t.file u.file → Option.Rel M t.top u.top →
      p.target? a = some t → q.target? b = some u → p.qualify a k i = q.qualify b l j := by
    intro t u hpath hfile htop ht hu
    have hshadow : i.any (p.shadowed (Text.cut '.' u.path).1 t.top) =
        j.any (q.shadowed (Text.cut '.' u.path).1 u.top) := by
      cases hij with
      | none => rfl
      | some hij => exact h.shadowed_eq htop hij
    simp only [qualify, ht, hu, h.namespaceName hfile, hspace, hpath, hshadow]
  cases hab with
  | scalar w | wellKnown w => rfl
  | message hm =>
    exact htarget (h.messagePath_eq hm) (h.message hm).file (getLast?_rel (h.chain hm)) rfl rfl
  | enum he =>
    exact htarget (h.enumPath_eq he) (h.enum he).file
      (getLast?_rel (h.chain_of_rel (h.enum he).parent)) rfl rfl

end Corresponds

/-! ## Classes, clients and files -/

namespace SameFile

variable {F M E Own : Nat → Nat → Prop} {p q : Program} {k l : Nat}

/-- Related types are written alike. -/
theorem typeName_eq (h : SameFile F M E Own p q k l) {a b : TypeRef} (hab : SameType M E a b)
    {i j : Option Nat} (hij : Option.Rel M i j) : typeName p k i a = typeName q l j b := by
  have hq := h.qualify_eq hab h.space hij
  have hcode : a.code = b.code := by cases hab <;> rfl
  unfold typeName
  cases hab with
  | scalar w => rfl
  | wellKnown w =>
    dsimp only
    rw [h.name]
  | message hm | enum he =>
    dsimp only
    rw [hq, hcode, h.name]

/-- No property of related classes may have one of the same names. -/
theorem takenNames_eq (h : SameFile F M E Own p q k l) {i j : Nat} (hij : M i j) :
    takenNames p (p.message i) = takenNames q (q.message j) := by
  have hm := h.message hij
  rw [takenNames, takenNames, hm.name,
    map_eq_of_forall₂ hm.messages fun a b hab => by rw [(h.message hab).name],
    map_eq_of_forall₂ hm.enums fun a b hab => by rw [(h.enum hab).name]]

/-- Related fields become the same properties. -/
theorem propertyLines_eq (h : SameFile F M E Own p q k l) {i j : Nat} (hij : M i j)
    (margin : String) {fs gs : List Field} (hfs : List.Forall₂ (SameField M E) fs gs)
    (seen : List (String × String)) :
    propertyLines p k i margin seen fs = propertyLines q l j margin seen gs := by
  induction hfs generalizing seen with
  | nil => rfl
  | @cons f g fs gs hfg _ ih =>
    have hname : g.name = f.name := by rw [hfg.rest]
    have hjson : g.jsonName = f.jsonName := by rw [hfg.rest]
    have hrepeated : g.repeated = f.repeated := by rw [hfg.rest]
    simp only [propertyLines, h.takenNames_eq hij, h.name, (h.message hij).fullName,
      h.typeName_eq hfg.type (.some hij), hname, hjson, hrepeated, ih]

/-- Related enums have the same lines. -/
theorem enumLines_eq (h : SameFile F M E Own p q k l) {i j : Nat} (hij : E i j) (margin : String) :
    enumLines (p.enum i) margin = enumLines (q.enum j) margin := by
  rw [enumLines, enumLines, (h.enum hij).name, (h.enum hij).values]

/-- Classes that are the same one by one are the same together. -/
theorem classesWithin_eq {depth depth' : Nat} {margin : String} {is js : List Nat}
    (h : List.Forall₂ (fun i j => classWithin p k depth margin i = classWithin q l depth' margin j)
      is js) :
    classesWithin p k depth margin is = classesWithin q l depth' margin js := by
  induction h with
  | nil => rw [classesWithin, classesWithin]
  | cons hij _ ih => rw [classesWithin, classesWithin, hij, ih]

/-- Related messages of the file become the same classes, when the bounds leave room for all
messages that come after them. -/
theorem classWithin_eq (h : SameFile F M E Own p q k l) {depth : Nat} :
    ∀ {depth' : Nat} {margin : String} {i j : Nat}, Own i j → p.messages.length ≤ depth + i →
      q.messages.length ≤ depth' + j →
      classWithin p k depth margin i = classWithin q l depth' margin j := by
  induction depth with
  | zero =>
    intro depth' margin i j hij hi _
    have := (h.message_lt (h.own hij)).1
    omega
  | succ depth ih =>
    intro depth' margin i j hij hi hj
    have hlt := (h.message_lt (h.own hij)).2
    obtain ⟨depth', rfl⟩ : ∃ n, depth' = n + 1 := ⟨depth' - 1, by omega⟩
    have hm := h.message (h.own hij)
    have hnested : classesWithin p k depth (margin ++ indent) (p.message i).messages =
        classesWithin q l depth' (margin ++ indent) (q.message j).messages := by
      refine classesWithin_eq ((h.children hij).imp ?_)
      -- Children come after their parents, so a bound less by one leaves room for them.
      rintro c c' ⟨hc, hic, hjc⟩
      exact ih hc (by omega) (by omega)
    rw [classWithin, classWithin]
    simp only [h.propertyLines_eq (h.own hij) _ (h.fields hij), hnested, hm.name,
      isEmpty_eq_of_forall₂ (h.fields hij),
      map_eq_of_forall₂ hm.enums fun a b hab => h.enumLines_eq hab (margin ++ indent)]

/-- Related messages of the file become the same classes. -/
theorem classOf_eq (h : SameFile F M E Own p q k l) {i j : Nat} (hij : Own i j) (margin : String) :
    classOf p k margin i = classOf q l margin j :=
  h.classWithin_eq hij (Nat.le_add_right _ _) (Nat.le_add_right _ _)

/-- Related procedures become the same client methods. -/
theorem clientMethods_eq (h : SameFile F M E Own p q k l) (profile : Profile) (baseName : String)
    {ms ns : List Method} (hms : List.Forall₂ (SameMethod M E) ms ns) :
    clientMethods p k profile baseName ms = clientMethods q l profile baseName ns := by
  induction hms with
  | nil => rfl
  | @cons m n ms ns hmn _ ih =>
    have hname : n.name = m.name := by rw [hmn.rest]
    simp only [clientMethods, h.typeName_eq hmn.input .none, h.typeName_eq hmn.output .none, hname,
      ih]

/-- Clients can call the same procedures of related services. -/
theorem unaryMethods_rel {a b : Service} (hab : SameService M E a b) :
    List.Forall₂ (SameMethod M E) a.unaryMethods b.unaryMethods := by
  refine List.rel_filter (fun m n hmn => ?_) hab.methods
  have hclient : n.clientStreaming = m.clientStreaming := by rw [hmn.rest]
  have hserver : n.serverStreaming = m.serverStreaming := by rw [hmn.rest]
  simp only [Method.isUnary, hclient, hserver]

/-- Related services become the same clients. -/
theorem clientOf_eq (h : SameFile F M E Own p q k l) (profile : Profile) {a b : Service}
    (hab : SameService M E a b) : clientOf p k profile a = clientOf q l profile b := by
  simp only [clientOf, h.baseName, h.clientMethods_eq profile _ (unaryMethods_rel hab), hab.name]

/-- The same file has the same output in both programs. -/
theorem emit_eq (h : SameFile F M E Own p q k l) (b : Backend) : emit b p k = emit b q l := by
  have hempty : (p.file k).isEmpty = (q.file l).isEmpty := by
    rw [File.isEmpty, File.isEmpty, isEmpty_eq_of_forall₂ h.messages, isEmpty_eq_of_forall₂ h.enums,
      isEmpty_eq_of_forall₂ h.services]
  simp only [emit, hempty, h.name, h.baseName, h.relDir, h.space, h.services.length_eq,
    map_eq_of_forall₂ h.enums fun i j hij => h.enumLines_eq hij indent,
    mapM_eq_of_forall₂ h.messages fun i j hij => h.classOf_eq hij indent,
    mapM_eq_of_forall₂ h.services fun a c hac => h.clientOf_eq b.profile hac]

end SameFile

end ProtoStub.Program
