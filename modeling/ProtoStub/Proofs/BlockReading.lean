import ProtoStub.Proofs.ClassTrees
import Mathlib

/-!
# Reading classes back

A class is written as lines. `readBlock` reads such lines one by one, without knowing how they were
written: it tells the kind of each line from its words, keeps the classes that are still open, and
accepts a line only where it may stand. An `End` line closes the innermost open block and has to
stand exactly under the line that opened it, everything in a block stands one step further in, the
attribute of a property is followed by the property at once, properties come before enums and enums
before classes, and there is nothing else but blank lines between the members of a class. Reading
the lines of a class tree gives the tree back, with its names as written (`readBlock_lines`).

The run goes by induction on the tree. What a list of members adds to an open class is stated once
for members of any kind (`runs_separated`). Numbers are read as the library reads them; that this
undoes how it writes them (`Int.toInt?_repr`) stands in no file that can be imported by itself, so
this module imports all of it.
-/

namespace ProtoStub.VisualBasic

/-! ## Lines -/

/-- What a line says. -/
inductive Statement where
  | openClass (name : String)
  | openEnum (name : String)
  | closeClass
  | closeEnum
  | attribute (wireName : String)
  | property (name type : String)
  | value (name : String) (number : Int)
  deriving Repr, DecidableEq

namespace Statement

/-- Reads `name = number`. -/
def value? (text : List Char) : Option Statement := do
  let rest ← (text.dropWhile (· != ' ')).dropPrefix? " = ".toList
  let number ← (String.ofList rest).toInt?
  return .value (String.ofList (text.takeWhile (· != ' '))) number

/-- Reads `Public Property name As type`. -/
def property? (text : List Char) : Option Statement := do
  let rest ← text.dropPrefix? "Public Property ".toList
  let type ← (rest.dropWhile (· != ' ')).dropPrefix? " As ".toList
  return .property (String.ofList (rest.takeWhile (· != ' '))) (String.ofList type)

/-- Reads `<JsonProperty("wireName")>`. -/
def attribute? (text : List Char) : Option Statement := do
  let rest ← text.dropPrefix? "<JsonProperty(\"".toList
  let wireName ← rest.dropSuffix? "\")>".toList
  return .attribute (String.ofList wireName)

/-- Reads the first or last line of a block. -/
def bound? (text : List Char) : Option Statement :=
  if text = "End Class".toList then some .closeClass
  else if text = "End Enum".toList then some .closeEnum
  else match text.dropPrefix? "Public Class ".toList with
    | some name => some (.openClass (String.ofList name))
    | none => (text.dropPrefix? "Public Enum ".toList).map fun name =>
      .openEnum (String.ofList name)

/-- What a line without its indentation says. -/
def read? (text : List Char) : Option Statement :=
  value? text <|> property? text <|> attribute? text <|> bound? text

end Statement

/-- How far a line is indented. -/
def indentation (line : String) : Nat := (line.toList.takeWhile (· == ' ')).length

/-- A line without its indentation. -/
def content (line : String) : List Char := line.toList.dropWhile (· == ' ')

/-! ## Blocks -/

/-- An enum that was read: its name and its values with their numbers. -/
structure EnumBlock where
  name : String
  values : List (String × Int) := []
  deriving Repr, DecidableEq

/-- A class that was read. -/
structure ClassBlock where
  name : String
  properties : List Property := []
  enums : List EnumBlock := []
  classes : List ClassBlock := []
  deriving Repr

/-- A class whose last line has not been read, and how far it is indented. -/
structure OpenClass where
  indentation : Nat
  block : ClassBlock
  deriving Repr

/-- What has been read so far. -/
inductive Reading where
  | start
  /-- Inside the class `top`, the innermost of the open ones. -/
  | inClass (top : OpenClass) (outer : List OpenClass)
  /-- Behind the attribute of a property. -/
  | inProperty (wireName : String) (top : OpenClass) (outer : List OpenClass)
  | inEnum (e : EnumBlock) (top : OpenClass) (outer : List OpenClass)
  /-- Behind the last line of the outermost class. -/
  | done (indentation : Nat) (block : ClassBlock)
  deriving Repr

/-- Where the members of an open class stand. -/
def OpenClass.inner (c : OpenClass) : Nat := c.indentation + indent.length

namespace Reading

/-- One more line, indented by `n`, that says `statement`. -/
def step (n : Nat) : Reading → Statement → Option Reading
  | start, .openClass name => some (inClass ⟨n, { name }⟩ [])
  | inClass top outer, .attribute wireName =>
    if n = top.inner ∧ top.block.enums.isEmpty ∧ top.block.classes.isEmpty then
      some (inProperty wireName top outer)
    else none
  | inProperty wireName top outer, .property name type =>
    if n = top.inner then
      let properties := top.block.properties ++ [⟨name, wireName, type⟩]
      some (inClass { top with block := { top.block with properties } } outer)
    else none
  | inClass top outer, .openEnum name =>
    if n = top.inner ∧ top.block.classes.isEmpty then some (inEnum { name } top outer) else none
  | inEnum e top outer, .value name number =>
    if n = top.inner + indent.length then
      some (inEnum { e with values := e.values ++ [(name, number)] } top outer)
    else none
  | inEnum e top outer, .closeEnum =>
    if n = top.inner then
      some (inClass { top with block := { top.block with enums := top.block.enums ++ [e] } } outer)
    else none
  | inClass top outer, .openClass name =>
    if n = top.inner then some (inClass ⟨n, { name }⟩ (top :: outer)) else none
  | inClass top outer, .closeClass =>
    if n = top.indentation then
      match outer with
      | [] => some (done n top.block)
      | next :: outer =>
        let classes := next.block.classes ++ [top.block]
        some (inClass { next with block := { next.block with classes } } outer)
    else none
  | _, _ => none

/-- One more line. A blank one may stand between the members of a class. -/
def stepLine (r : Reading) (line : String) : Option Reading :=
  if content line = [] then
    match r with
    | inClass top outer => some (inClass top outer)
    | _ => none
  else (Statement.read? (content line)).bind (r.step (indentation line))

end Reading

/-- Reads the lines of one class: how far it is indented, and what stands in it. -/
def readBlock (lines : List String) : Option (Nat × ClassBlock) :=
  match lines.foldlM Reading.stepLine .start with
  | some (.done n block) => some (n, block)
  | _ => none

/-- The statement opens a class or an enum. -/
def Statement.opens : Statement → Bool
  | openClass _ | openEnum _ => true
  | _ => false

/-- The lines that open a class or an enum, in order. -/
def openings (lines : List String) : List Statement :=
  (lines.filterMap fun line => Statement.read? (content line)).filter Statement.opens

/-! ## Class trees as blocks -/

/-- An enum with its names as written. -/
def enumBlock (e : Program.Enum) : EnumBlock where
  name := escape e.name
  values := e.values.map fun v => (escape v.name, v.number)

/-- A property with its name as written. -/
def Property.written (q : Property) : Property := { q with name := escape q.name }

mutual

/-- A class with its names as written. -/
def ClassTree.block : ClassTree → ClassBlock
  | ⟨name, properties, enums, classes⟩ =>
    ⟨escape name, properties.map Property.written, enums.map enumBlock, ClassTree.blocks classes⟩

/-- Classes with their names as written. -/
def ClassTree.blocks : List ClassTree → List ClassBlock
  | [] => []
  | c :: cs => c.block :: ClassTree.blocks cs

end

/-- The blocks of classes are theirs one by one. -/
theorem ClassTree.blocks_eq (cs : List ClassTree) :
    ClassTree.blocks cs = cs.map ClassTree.block := by
  induction cs with
  | nil => rfl
  | cons c cs ih => rw [ClassTree.blocks, ih, List.map_cons]

/-- What holds of a class when it holds of the classes in it holds of every class. -/
theorem ClassTree.induction {P : ClassTree → Prop}
    (h : ∀ c : ClassTree, (∀ x ∈ c.classes, P x) → P c) (c : ClassTree) : P c := by
  obtain ⟨name, properties, enums, classes⟩ := c
  exact h _ fun x hx => ClassTree.induction h x
termination_by sizeOf c
decreasing_by
  have := List.sizeOf_lt_of_mem hx
  simp_all
  omega

/-- The names in the class itself can be told apart from what stands around them on their lines. -/
structure ClassTree.Legible (c : ClassTree) : Prop where
  property : ∀ q ∈ c.properties, ' ' ∉ q.name.toList ∧ ' ' ∉ q.wireName.toList
  value : ∀ e ∈ c.enums, ∀ v ∈ e.values, v.name ≠ "" ∧ ' ' ∉ v.name.toList

/-! ## Single lines -/

/-- A margin of `n` spaces. -/
def spaces (n : Nat) : String := String.ofList (List.replicate n ' ')

/-- One more step of indentation is more spaces. -/
theorem spaces_append_indent (n : Nat) : spaces n ++ indent = spaces (n + indent.length) := by
  have hindent : indent = spaces indent.length := by decide
  rw [hindent, spaces, spaces, ← String.ofList_append, List.replicate_append_replicate]
  rfl

/-! ### Lines as a margin and a text -/

/-- A property is two lines, each of which is spaces and a statement. -/
theorem Property.lines_eq (q : Property) (n : Nat) : q.lines (spaces n ++ indent) =
    [spaces (n + indent.length) ++ ("<JsonProperty(\"" ++ (q.wireName ++ "\")>"))] ++
      [spaces (n + indent.length) ++
        ("Public Property " ++ (escape q.name ++ (" As " ++ q.type)))] := by
  simp only [Property.lines, spaces_append_indent, String.append_assoc]
  rfl

/-- An enum is a line for each value between two lines that bound it. -/
theorem enumLines_eq (e : Program.Enum) (n : Nat) : enumLines e (spaces n ++ indent) =
    [spaces (n + indent.length) ++ ("Public Enum " ++ escape e.name)] ++
      (e.values.map fun v => spaces (n + indent.length + indent.length) ++
        (escape v.name ++ (" = " ++ toString v.number))) ++
      [spaces (n + indent.length) ++ "End Enum"] := by
  simp only [enumLines, spaces_append_indent, String.append_assoc]
  rfl

/-- What a class tree holds, between the first and the last line of its class. -/
def ClassTree.inside (c : ClassTree) (margin : String) : List String :=
  separated false (c.properties.map (·.lines margin) ++ c.enums.map (enumLines · margin) ++
    c.classes.map (·.lines margin))

/-- A class is what stands inside between two lines that bound it. -/
theorem ClassTree.lines_eq (c : ClassTree) (n : Nat) : c.lines (spaces n) =
    [spaces n ++ ("Public Class " ++ escape c.name)] ++ c.inside (spaces n ++ indent) ++
      [spaces n ++ "End Class"] := by
  obtain ⟨name, properties, enums, classes⟩ := c
  simp only [ClassTree.lines, ClassTree.allLines_eq, ClassTree.inside, String.append_assoc]
  rfl

/-! ### Lines that are read -/

/-- The indentation of a line is the margin in front of it. -/
theorem indentation_spaces (n : Nat) {text : String} (h : text.toList.head? ≠ some ' ') :
    indentation (spaces n ++ text) = n ∧ content (spaces n ++ text) = text.toList := by
  have hspaces : ∀ c ∈ List.replicate n ' ', (c == ' ') = true := by
    intro c hc
    rw [(List.mem_replicate.1 hc).2]
    rfl
  have htext : text.toList.takeWhile (· == ' ') = [] ∧
      text.toList.dropWhile (· == ' ') = text.toList := by
    cases htoList : text.toList with
    | nil => exact ⟨rfl, rfl⟩
    | cons c cs =>
      have hc : (c == ' ') = false := by simpa [htoList] using h
      simp [hc]
  rw [indentation, content, String.toList_append, spaces, String.toList_ofList,
    List.takeWhile_append_of_pos hspaces, List.dropWhile_append_of_pos hspaces, htext.1, htext.2]
  simp

namespace Statement

/-- What a text starts with can be taken off. -/
theorem dropPrefix?_append (start rest : List Char) :
    (start ++ rest).dropPrefix? start = some rest :=
  List.dropPrefix?_append_of_beq rest (by simp)

/-- The first word of a text ends at the first space. -/
theorem firstWord {word : List Char} (h : ' ' ∉ word) (rest : List Char) :
    (word ++ ' ' :: rest).takeWhile (· != ' ') = word ∧
      (word ++ ' ' :: rest).dropWhile (· != ' ') = ' ' :: rest := by
  have hword : ∀ c ∈ word, (c != ' ') = true := by
    intro c hc
    rw [bne_iff_ne]
    rintro rfl
    exact h hc
  rw [List.takeWhile_append_of_pos hword, List.dropWhile_append_of_pos hword]
  simp

/-- The first line of a class is read as such: two words tell it from every other line. -/
theorem read?_openClass (name : String) :
    read? ("Public Class " ++ name).toList = some (.openClass name) := by
  have hbound : bound? ("Public Class ".toList ++ name.toList) = some (.openClass name) := by
    rw [bound?, if_neg (by simp), if_neg (by simp), dropPrefix?_append]
    simp
  rw [String.toList_append, read?, hbound]
  rfl

/-- The first line of an enum is read as such. -/
theorem read?_openEnum (name : String) :
    read? ("Public Enum " ++ name).toList = some (.openEnum name) := by
  have hclass : ("Public Enum ".toList ++ name.toList).dropPrefix? "Public Class ".toList = none :=
    rfl
  have hbound : bound? ("Public Enum ".toList ++ name.toList) = some (.openEnum name) := by
    rw [bound?, if_neg (by simp), if_neg (by simp), hclass, dropPrefix?_append]
    simp
  rw [String.toList_append, read?, hbound]
  rfl

/-- The last line of a class says nothing else. -/
theorem read?_closeClass : read? "End Class".toList = some .closeClass := rfl

/-- The last line of an enum says nothing else. -/
theorem read?_closeEnum : read? "End Enum".toList = some .closeEnum := rfl

/-- A value is read back where its name has no blank in it. -/
theorem read?_value {name : String} (h : ' ' ∉ name.toList) (number : Int) :
    read? (name ++ (" = " ++ toString number)).toList = some (.value name number) := by
  obtain ⟨htake, hdrop⟩ := firstWord h ("= ".toList ++ (toString number).toList)
  have hvalue : value? (name.toList ++ (" = ".toList ++ (toString number).toList)) =
      some (.value name number) := by
    have hspace : " = ".toList ++ (toString number).toList =
        ' ' :: ("= ".toList ++ (toString number).toList) := rfl
    rw [value?, hspace, htake, hdrop, ← hspace, dropPrefix?_append]
    simp
  rw [String.toList_append, String.toList_append, read?, hvalue]
  rfl

/-- A property is read back where its name has no blank in it; its type may have some. -/
theorem read?_property {name : String} (h : ' ' ∉ name.toList) (type : String) :
    read? ("Public Property " ++ (name ++ (" As " ++ type))).toList =
      some (.property name type) := by
  obtain ⟨htake, hdrop⟩ := firstWord h ("As ".toList ++ type.toList)
  have hproperty : property? ("Public Property ".toList ++
      (name.toList ++ (" As ".toList ++ type.toList))) = some (.property name type) := by
    have hspace : " As ".toList ++ type.toList = ' ' :: ("As ".toList ++ type.toList) := rfl
    rw [property?, dropPrefix?_append]
    simp only [Option.bind_eq_bind, Option.bind_some]
    rw [hspace, htake, hdrop, ← hspace, dropPrefix?_append]
    simp
  rw [String.toList_append, String.toList_append, String.toList_append, read?, hproperty]
  rfl

/-- An attribute is read back with the name in its quotes. -/
theorem read?_attribute {wireName : String} (h : ' ' ∉ wireName.toList) :
    read? ("<JsonProperty(\"" ++ (wireName ++ "\")>")).toList = some (.attribute wireName) := by
  have hspaces : ' ' ∉ "<JsonProperty(\"".toList ++ (wireName.toList ++ "\")>".toList) := by
    simpa using h
  have hvalue : value? ("<JsonProperty(\"".toList ++ (wireName.toList ++ "\")>".toList)) =
      none := by
    have hdrop : ("<JsonProperty(\"".toList ++ (wireName.toList ++ "\")>".toList)).dropWhile
        (· != ' ') = [] := by
      rw [List.dropWhile_eq_nil_iff]
      intro c hc
      rw [bne_iff_ne]
      rintro rfl
      exact hspaces hc
    rw [value?, hdrop]
    rfl
  have hsuffix : (wireName.toList ++ "\")>".toList).dropSuffix? "\")>".toList =
      some wireName.toList := by
    rw [List.dropSuffix?_eq_some_iff]
    exact ⟨_, rfl, by simp⟩
  have hattribute : attribute? ("<JsonProperty(\"".toList ++
      (wireName.toList ++ "\")>".toList)) = some (.attribute wireName) := by
    rw [attribute?, dropPrefix?_append]
    simp only [Option.bind_eq_bind, Option.bind_some]
    rw [hsuffix]
    simp
  rw [String.toList_append, String.toList_append, read?, hvalue, hattribute]
  rfl

end Statement

/-! ## Runs -/

/-- Reading the lines goes from `r` to `r'`. -/
def Runs (r : Reading) (lines : List String) (r' : Reading) : Prop :=
  lines.foldlM Reading.stepLine r = some r'

/-- Reading no lines changes nothing. -/
theorem Runs.nil (r : Reading) : Runs r [] r := rfl

/-- Lines are read one part after the other. -/
theorem Runs.append {a b c : Reading} {xs ys : List String} (h : Runs a xs b) (h' : Runs b ys c) :
    Runs a (xs ++ ys) c := by
  rw [Runs, List.foldlM_append, h]
  exact h'

/-- A blank line between members changes nothing. -/
theorem runs_blank (top : OpenClass) (outer : List OpenClass) :
    Runs (.inClass top outer) [""] (.inClass top outer) := rfl

/-- A line that says something moves the reading by one step. -/
theorem runs_line {r r' : Reading} {n : Nat} {text : String} {statement : Statement}
    (hstart : text.toList.head? ≠ some ' ') (hread : Statement.read? text.toList = some statement)
    (hstep : r.step n statement = some r') : Runs r [spaces n ++ text] r' := by
  obtain ⟨hindentation, hcontent⟩ := indentation_spaces n hstart
  have hne : text.toList ≠ [] := by
    intro hnil
    rw [hnil] at hread
    cases hread
  have hline : r.stepLine (spaces n ++ text) = some r' := by
    unfold Reading.stepLine
    rw [hcontent, if_neg hne, hindentation, hread]
    exact hstep
  rw [Runs, List.foldlM_cons, hline]
  rfl

/-- Members of one kind are read one after the other, with blank lines between them. `state` is the
open class after some of them. -/
theorem runs_separated {α : Type} {state : List α → OpenClass} {outer : List OpenClass}
    {lines : α → List String} {xs : List α}
    (h : ∀ done, ∀ x ∈ xs,
      Runs (.inClass (state done) outer) (lines x) (.inClass (state (done ++ [x])) outer))
    (started : Bool) (done : List α) :
    Runs (.inClass (state done) outer) (separated started (xs.map lines))
      (.inClass (state (done ++ xs)) outer) := by
  induction xs generalizing started done with
  | nil =>
    rw [List.append_nil]
    exact .nil _
  | cons x xs ih =>
    have hblank : Runs (.inClass (state done) outer) (if started then [""] else [])
        (.inClass (state done) outer) := by
      cases started
      · exact .nil _
      · exact runs_blank _ _
    have hrest := ih (fun done y hy => h done y (List.mem_cons_of_mem x hy)) true (done ++ [x])
    rw [List.append_assoc, List.singleton_append] at hrest
    exact (hblank.append (h done x List.mem_cons_self)).append hrest

/-- Escaping adds brackets and no other character. -/
theorem notMem_escape {c : Char} (hc : c ≠ '[' ∧ c ≠ ']') {name : String} (h : c ∉ name.toList) :
    c ∉ (escape name).toList := by
  rw [escape]
  split
  · simp [hc, h]
  · exact h

/-- Escaping adds no blank. -/
theorem space_notMem_escape {name : String} (h : ' ' ∉ name.toList) :
    ' ' ∉ (escape name).toList :=
  notMem_escape (by decide) h

/-- What starts with an escaped name starts with no blank, which would count as indentation. -/
theorem head?_escape_append {name : String} (hne : name ≠ "") (h : ' ' ∉ name.toList)
    (rest : String) : (escape name ++ rest).toList.head? ≠ some ' ' := by
  have hescape := space_notMem_escape h
  have hnil : (escape name).toList ≠ [] := by
    rw [escape]
    split
    · simp
    · simpa using hne
  rw [String.toList_append, List.head?_append_of_ne_nil _ hnil]
  intro hhead
  exact hescape (List.mem_of_mem_head? hhead)

/-- The two lines of a property add it to the class that is open. -/
theorem runs_property {q : Property} (h : ' ' ∉ q.name.toList ∧ ' ' ∉ q.wireName.toList)
    (n : Nat) (name : String) (properties : List Property) (outer : List OpenClass) :
    Runs (.inClass ⟨n, { name, properties }⟩ outer) (q.lines (spaces n ++ indent))
      (.inClass ⟨n, { name, properties := properties ++ [q.written] }⟩ outer) := by
  have hattribute : Runs (.inClass ⟨n, { name, properties }⟩ outer)
      [spaces (n + indent.length) ++ ("<JsonProperty(\"" ++ (q.wireName ++ "\")>"))]
      (.inProperty q.wireName ⟨n, { name, properties }⟩ outer) :=
    runs_line (by simp) (Statement.read?_attribute h.2)
      (by simp [Reading.step, OpenClass.inner])
  have hproperty : Runs (.inProperty q.wireName ⟨n, { name, properties }⟩ outer)
      [spaces (n + indent.length) ++ ("Public Property " ++ (escape q.name ++ (" As " ++ q.type)))]
      (.inClass ⟨n, { name, properties := properties ++ [q.written] }⟩ outer) :=
    runs_line (by simp) (Statement.read?_property (space_notMem_escape h.1) q.type)
      (by simp [Reading.step, OpenClass.inner, Property.written])
  rw [Property.lines_eq]
  exact hattribute.append hproperty

/-- The values of an enum are read one after the other. -/
theorem runs_values {values : List Program.EnumValue}
    (h : ∀ v ∈ values, v.name ≠ "" ∧ ' ' ∉ v.name.toList) (e : EnumBlock) (top : OpenClass)
    (outer : List OpenClass) :
    Runs (.inEnum e top outer)
      (values.map fun v => spaces (top.inner + indent.length) ++
        (escape v.name ++ (" = " ++ toString v.number)))
      (.inEnum { e with values := e.values ++ values.map fun v => (escape v.name, v.number) }
        top outer) := by
  induction values generalizing e with
  | nil => simpa using Runs.nil _
  | cons v values ih =>
    obtain ⟨hne, hspace⟩ := h v List.mem_cons_self
    have hfirst : Runs (.inEnum e top outer)
        [spaces (top.inner + indent.length) ++ (escape v.name ++ (" = " ++ toString v.number))]
        (.inEnum { e with values := e.values ++ [(escape v.name, v.number)] } top outer) :=
      runs_line (head?_escape_append hne hspace _)
        (Statement.read?_value (space_notMem_escape hspace) v.number) (by simp [Reading.step])
    have hrest := ih (fun w hw => h w (List.mem_cons_of_mem v hw))
      { e with values := e.values ++ [(escape v.name, v.number)] }
    rw [List.append_assoc, List.singleton_append] at hrest
    exact hfirst.append hrest

/-- The lines of an enum add it to the class that is open. The values go by induction, inside the
enum. -/
theorem runs_enum {e : Program.Enum} (h : ∀ v ∈ e.values, v.name ≠ "" ∧ ' ' ∉ v.name.toList)
    (n : Nat) (name : String) (properties : List Property) (enums : List EnumBlock)
    (outer : List OpenClass) :
    Runs (.inClass ⟨n, { name, properties, enums }⟩ outer) (enumLines e (spaces n ++ indent))
      (.inClass ⟨n, { name, properties, enums := enums ++ [enumBlock e] }⟩ outer) := by
  have hopen : Runs (.inClass ⟨n, { name, properties, enums }⟩ outer)
      [spaces (n + indent.length) ++ ("Public Enum " ++ escape e.name)]
      (.inEnum { name := escape e.name } ⟨n, { name, properties, enums }⟩ outer) :=
    runs_line (by simp) (Statement.read?_openEnum (escape e.name))
      (by simp [Reading.step, OpenClass.inner])
  have hvalues := runs_values h { name := escape e.name } ⟨n, { name, properties, enums }⟩ outer
  have hclose : Runs (.inEnum (enumBlock e) ⟨n, { name, properties, enums }⟩ outer)
      [spaces (n + indent.length) ++ "End Enum"]
      (.inClass ⟨n, { name, properties, enums := enums ++ [enumBlock e] }⟩ outer) :=
    runs_line (by simp) Statement.read?_closeEnum (by simp [Reading.step, OpenClass.inner])
  rw [enumLines_eq]
  exact (hopen.append hvalues).append hclose

/-- The block of a class has the names of its tree as they are written. -/
theorem ClassTree.block_eq (c : ClassTree) : c.block =
    ⟨escape c.name, c.properties.map Property.written, c.enums.map enumBlock,
      c.classes.map ClassTree.block⟩ := by
  obtain ⟨name, properties, enums, classes⟩ := c
  rw [ClassTree.block, ClassTree.blocks_eq]

/-- The first line of a class is one step. -/
theorem runs_openClass (r : Reading) {r' : Reading} (name : String) (n : Nat)
    (h : r.step n (.openClass name) = some r') :
    Runs r [spaces n ++ ("Public Class " ++ name)] r' :=
  runs_line (by simp) (Statement.read?_openClass name) h

/-- The last line of a class is one step. -/
theorem runs_closeClass (r : Reading) {r' : Reading} (n : Nat)
    (h : r.step n .closeClass = some r') : Runs r [spaces n ++ "End Class"] r' :=
  runs_line (by simp) Statement.read?_closeClass h

/-- The class, open with some of its members read. -/
def ClassTree.partly (c : ClassTree) (n : Nat) (properties : List Property)
    (enums : List Program.Enum) (classes : List ClassTree) : OpenClass :=
  ⟨n, ⟨escape c.name, properties.map Property.written, enums.map enumBlock,
    classes.map ClassTree.block⟩⟩

/-- The members of a class are read into the class. -/
theorem runs_inside {c : ClassTree} (h : ∀ x : ClassTree, x.Within c → x.Legible) (n : Nat)
    (outer : List OpenClass) :
    Runs (.inClass (c.partly n [] [] []) outer) (c.inside (spaces n ++ indent))
      (.inClass (c.partly n c.properties c.enums c.classes) outer) := by
  induction c using ClassTree.induction generalizing n outer with
  | h c ih =>
    have hproperty : ∀ done, ∀ q ∈ c.properties, Runs (.inClass (c.partly n done [] []) outer)
        (q.lines (spaces n ++ indent)) (.inClass (c.partly n (done ++ [q]) [] []) outer) := by
      intro done q hq
      simpa [ClassTree.partly] using
        runs_property ((h c .self).property q hq) n (escape c.name) (done.map _) outer
    have henum : ∀ done, ∀ e ∈ c.enums, Runs (.inClass (c.partly n c.properties done []) outer)
        (enumLines e (spaces n ++ indent))
        (.inClass (c.partly n c.properties (done ++ [e]) []) outer) := by
      intro done e he
      simpa [ClassTree.partly] using
        runs_enum ((h c .self).value e he) n (escape c.name) _ (done.map _) outer
    -- A nested class is read inside the class that is open here.
    have hclass : ∀ done, ∀ x ∈ c.classes,
        Runs (.inClass (c.partly n c.properties c.enums done) outer)
          (x.lines (spaces n ++ indent))
          (.inClass (c.partly n c.properties c.enums (done ++ [x])) outer) := by
      intro done x hx
      have hinside := ih x hx (fun y hy => h y (.nested hx hy)) (n + indent.length)
        (c.partly n c.properties c.enums done :: outer)
      rw [spaces_append_indent, ClassTree.lines_eq]
      refine ((runs_openClass _ _ _ ?_).append hinside).append (runs_closeClass _ _ ?_)
      · simp [Reading.step, OpenClass.inner, ClassTree.partly]
      · simp [Reading.step, ClassTree.partly, x.block_eq]
    rw [ClassTree.inside, separated_append, separated_append]
    exact ((runs_separated hproperty _ []).append (runs_separated henum _ [])).append
      (runs_separated hclass _ [])

/-- Reading the lines of a class gives back the class, and how far it was indented. -/
theorem readBlock_lines {c : ClassTree} (h : ∀ x : ClassTree, x.Within c → x.Legible) (n : Nat) :
    readBlock (c.lines (spaces n)) = some (n, c.block) := by
  have hopen : Runs .start [spaces n ++ ("Public Class " ++ escape c.name)]
      (.inClass (c.partly n [] [] []) []) := runs_openClass _ _ _ rfl
  have hclose : Runs (.inClass (c.partly n c.properties c.enums c.classes) [])
      [spaces n ++ "End Class"] (.done n c.block) :=
    runs_closeClass _ _ (by simp [Reading.step, ClassTree.partly, c.block_eq])
  have hrun : Runs .start (c.lines (spaces n)) (.done n c.block) := by
    rw [ClassTree.lines_eq]
    exact (hopen.append (runs_inside h n [])).append hclose
  rw [readBlock, hrun]

/-! ## Openings -/

/-- The lines that open a block are found part by part. -/
theorem openings_append (xs ys : List String) :
    openings (xs ++ ys) = openings xs ++ openings ys := by
  simp [openings]

/-- A single line opens a block if its statement does. -/
theorem openings_line {n : Nat} {text : String} {statement : Statement}
    (hstart : text.toList.head? ≠ some ' ') (hread : Statement.read? text.toList = some statement) :
    openings [spaces n ++ text] = [statement].filter Statement.opens := by
  rw [openings, List.filterMap_cons, (indentation_spaces n hstart).2, hread]
  rfl

/-- Blank lines open nothing. -/
theorem openings_separated (started : Bool) (blocks : List (List String)) :
    openings (separated started blocks) = blocks.flatMap openings := by
  induction blocks generalizing started with
  | nil => rfl
  | cons block blocks ih =>
    have hblank : openings (if started then [""] else []) = [] := by cases started <;> rfl
    rw [separated, openings_append, openings_append, hblank, ih, List.flatMap_cons]
    rfl

/-- The lines of a property open nothing. -/
theorem openings_property {q : Property} (h : ' ' ∉ q.name.toList ∧ ' ' ∉ q.wireName.toList)
    (n : Nat) : openings (q.lines (spaces n ++ indent)) = [] := by
  rw [Property.lines_eq, openings_append, openings_line (by simp) (Statement.read?_attribute h.2),
    openings_line (by simp) (Statement.read?_property (space_notMem_escape h.1) q.type)]
  rfl

/-- The lines of an enum open one block, since a value opens none. -/
theorem openings_enum {e : Program.Enum} (h : ∀ v ∈ e.values, v.name ≠ "" ∧ ' ' ∉ v.name.toList)
    (n : Nat) : openings (enumLines e (spaces n ++ indent)) = [.openEnum (escape e.name)] := by
  have hvalues : openings (e.values.map fun v => spaces (n + indent.length + indent.length) ++
      (escape v.name ++ (" = " ++ toString v.number))) = [] := by
    generalize hvs : e.values = values at h
    clear hvs
    induction values with
    | nil => rfl
    | cons v values ih =>
      obtain ⟨hne, hspace⟩ := h v List.mem_cons_self
      rw [List.map_cons, ← List.singleton_append, openings_append,
        openings_line (head?_escape_append hne hspace _)
          (Statement.read?_value (space_notMem_escape hspace) v.number),
        ih fun w hw => h w (List.mem_cons_of_mem v hw)]
      rfl
  rw [enumLines_eq, openings_append, openings_append, hvalues,
    openings_line (by simp) (Statement.read?_openEnum _),
    openings_line (by simp) Statement.read?_closeEnum]
  rfl

/-- A class opens itself, then its enums, then what its classes open. -/
theorem openings_lines {c : ClassTree} (h : c.Legible) (n : Nat) : openings (c.lines (spaces n)) =
    .openClass (escape c.name) :: ((c.enums.map fun e => .openEnum (escape e.name)) ++
      c.classes.flatMap fun x => openings (x.lines (spaces (n + indent.length)))) := by
  have hproperties : (c.properties.map (·.lines (spaces n ++ indent))).flatMap openings = [] := by
    rw [List.flatMap_map, List.flatMap_eq_nil_iff]
    exact fun q hq => openings_property (h.property q hq) n
  have henums : (c.enums.map (enumLines · (spaces n ++ indent))).flatMap openings =
      c.enums.map fun e => .openEnum (escape e.name) := by
    rw [List.flatMap_map, List.flatMap_congr fun e he => openings_enum (h.value e he) n,
      ← List.map_eq_flatMap]
  rw [ClassTree.lines_eq, openings_append, openings_append,
    openings_line (by simp) (Statement.read?_openClass _),
    openings_line (by simp) Statement.read?_closeClass, ClassTree.inside, openings_separated,
    List.flatMap_append, List.flatMap_append, hproperties, henums, List.flatMap_map,
    spaces_append_indent, List.nil_append]
  exact List.append_nil _

end ProtoStub.VisualBasic
