import ProtoStub.Proofs.Routes
import ProtoStub.Proofs.Scoping
import ProtoStub.VisualBasic.Word

/-!
# Type names as written

A type name is written segment by segment, a listed word in brackets, and behind `Global` when it
has to be looked up from the global root. `Global` is a listed word itself, so no segment of the
name is ever written like the root in front of it (`escape_ne_global`), not even in a namespace
called `Global`. That is why the written text can be read back, name and root (`readName_rooted`),
as long as the name has no brackets of its own, and why no two names are written alike
(`rooted_unambiguous`). A name in brackets is no listed word (`not_listed_of_mem`), so writing a
path that was written before changes nothing.

The listed words are the reserved words of the language (`keywords`) but for one: `GoSub`, which has
no statement any more and is still reserved, is not listed (`isReserved_iff`). A segment `GoSub`
is therefore written bare, and it is the only reserved word that is (`isSafe_escape_iff`).
-/

namespace ProtoStub.VisualBasic

open Text

/-! ## Single names -/

/-- The reserved words of the language as its lexical grammar spells them, with `NameOf` of its
later versions. `EndIf`, `GoSub`, `Let`, `Variant` and `Wend` have no use any more and stay
reserved. -/
def keywords : List String :=
  ["AddHandler", "AddressOf", "Alias", "And", "AndAlso", "As", "Boolean", "ByRef", "Byte", "ByVal",
    "Call", "Case", "Catch", "CBool", "CByte", "CChar", "CDate", "CDbl", "CDec", "Char", "CInt",
    "Class", "CLng", "CObj", "Const", "Continue", "CSByte", "CShort", "CSng", "CStr", "CType",
    "CUInt", "CULng", "CUShort", "Date", "Decimal", "Declare", "Default", "Delegate", "Dim",
    "DirectCast", "Do", "Double", "Each", "Else", "ElseIf", "End", "EndIf", "Enum", "Erase",
    "Error", "Event", "Exit", "False", "Finally", "For", "Friend", "Function", "Get", "GetType",
    "GetXMLNamespace", "Global", "GoSub", "GoTo", "Handles", "If", "Implements", "Imports", "In",
    "Inherits", "Integer", "Interface", "Is", "IsNot", "Let", "Lib", "Like", "Long", "Loop", "Me",
    "Mod", "Module", "MustInherit", "MustOverride", "MyBase", "MyClass", "NameOf", "Namespace",
    "Narrowing", "New", "Next", "Not", "Nothing", "NotInheritable", "NotOverridable", "Object",
    "Of", "On", "Operator", "Option", "Optional", "Or", "OrElse", "Overloads", "Overridable",
    "Overrides", "ParamArray", "Partial", "Private", "Property", "Protected", "Public",
    "RaiseEvent", "ReadOnly", "ReDim", "REM", "RemoveHandler", "Resume", "Return", "SByte",
    "Select", "Set", "Shadows", "Shared", "Short", "Single", "Static", "Step", "Stop", "String",
    "Structure", "Sub", "SyncLock", "Then", "Throw", "To", "True", "Try", "TryCast", "TypeOf",
    "UInteger", "ULong", "UShort", "Using", "Variant", "Wend", "When", "While", "Widening", "With",
    "WithEvents", "WriteOnly", "Xor"]

/-- Without regard to letter case, the name is one of the reserved words of the language. -/
def IsReserved (name : String) : Prop := ∃ word ∈ keywords, foldCase name = foldCase word

/-- Without regard to letter case, the name is `GoSub`. -/
def IsGoSub (name : String) : Prop := foldCase name = foldCase "GoSub"

instance (name : String) : Decidable (IsGoSub name) :=
  inferInstanceAs (Decidable (_ = _))

/-- No bracket stands in the text. -/
def Bracketless (text : String) : Prop := '[' ∉ text.toList ∧ ']' ∉ text.toList

instance (text : String) : Decidable (Bracketless text) := inferInstanceAs (Decidable (_ ∧ _))

/-- The segment is a reserved word in brackets, or no reserved word and without brackets. -/
def IsSafe (segment : String) : Prop :=
  (∃ word, IsReserved word ∧ segment = "[" ++ word ++ "]") ∨
    ¬ IsReserved segment ∧ Bracketless segment

section
variable {name : String}

/-- The listed words are the reserved words in lower case, without `GoSub`. -/
theorem map_foldCase_keywords : keywords.map foldCase = reservedWords.insertIdx 62 "gosub" := by
  decide +kernel

/-- A name is reserved if it is listed or `GoSub`. -/
theorem isReserved_iff : IsReserved name ↔ foldCase name ∈ reservedWords ∨ IsGoSub name := by
  have hfold : foldCase "GoSub" = "gosub" := by decide
  have hlength : 62 ≤ reservedWords.length := by decide +kernel
  have hkeywords : IsReserved name ↔ foldCase name ∈ keywords.map foldCase := by
    simp only [IsReserved, List.mem_map, eq_comm]
  rw [hkeywords, map_foldCase_keywords, List.mem_insertIdx hlength, IsGoSub, hfold, or_comm]

/-- The listed words are made of small letters. -/
theorem isLower_of_mem_reservedWords {word : String} (h : word ∈ reservedWords) {c : Char}
    (hc : c ∈ word.toList) : c.isLower = true := by
  have hall : (reservedWords.all fun word => word.toList.all Char.isLower) = true := by
    decide +kernel
  exact List.all_eq_true.1 (List.all_eq_true.1 hall word h) c hc

/-- A name is written in brackets if it is listed, and as it stands if it is not. -/
theorem escape_cases (name : String) :
    foldCase name ∈ reservedWords ∧ escape name = "[" ++ name ++ "]" ∨
      foldCase name ∉ reservedWords ∧ escape name = name := by
  rw [← List.contains_iff_mem, escape]
  split
  · rename_i h
    exact .inl ⟨h, rfl⟩
  · rename_i h
    exact .inr ⟨h, rfl⟩

/-- A bracket of a name stays where names are compared. -/
theorem mem_foldCase (h : '[' ∈ name.toList) : '[' ∈ (foldCase name).toList := by
  have hkeep : toLower '[' = '[' := by decide
  rw [foldCase, String.toList_ofList]
  exact List.mem_map.2 ⟨'[', h, hkeep⟩

/-- A name with a bracket is no listed word. -/
theorem not_listed_of_mem (h : '[' ∈ name.toList) : foldCase name ∉ reservedWords := by
  intro hlisted
  exact absurd (isLower_of_mem_reservedWords hlisted (mem_foldCase h)) (by decide)

/-- What is written is no listed word. -/
theorem not_listed_escape (name : String) : foldCase (escape name) ∉ reservedWords := by
  rcases escape_cases name with ⟨-, he⟩ | ⟨h, he⟩
  · rw [he]
    exact not_listed_of_mem (by simp)
  · rwa [he]

theorem escape_escape (name : String) : escape (escape name) = escape name := by
  rcases escape_cases (escape name) with ⟨h, -⟩ | ⟨-, he⟩
  · exact absurd h (not_listed_escape name)
  · exact he

/-- No name is written like the global root. -/
theorem escape_ne_global (name : String) : escape name ≠ "Global" := by
  have hroot : foldCase "Global" ∈ reservedWords := by decide
  exact fun he => not_listed_escape name (he ▸ hroot)

/-- `GoSub` is not listed, in whatever case it is spelled. -/
theorem IsGoSub.not_listed (h : IsGoSub name) : foldCase name ∉ reservedWords := by
  rw [show foldCase name = foldCase "GoSub" from h]
  decide

theorem IsGoSub.escape_eq (h : IsGoSub name) : escape name = name := by
  rcases escape_cases name with ⟨hlisted, -⟩ | ⟨-, he⟩
  · exact absurd hlisted h.not_listed
  · exact he

/-- A name that stands bare is safe exactly if it is no reserved word. -/
theorem isSafe_iff_of_bracketless (h : Bracketless name) : IsSafe name ↔ ¬ IsReserved name := by
  constructor
  · rintro (⟨word, -, rfl⟩ | ⟨hfree, -⟩)
    · exact absurd (by simp) h.1
    · exact hfree
  · exact fun hfree => .inr ⟨hfree, h⟩

/-- `GoSub` is the one name that is not written safely. -/
theorem isSafe_escape_iff (h : Bracketless name) : IsSafe (escape name) ↔ ¬ IsGoSub name := by
  rcases escape_cases name with ⟨hlisted, he⟩ | ⟨hfree, he⟩
  · have hsafe : IsSafe (escape name) := .inl ⟨name, isReserved_iff.2 (.inl hlisted), he⟩
    exact iff_of_true hsafe fun hgosub => hgosub.not_listed hlisted
  · rw [he, isSafe_iff_of_bracketless h, isReserved_iff]
    simp only [hfree, false_or]

theorem dot_not_mem_escape (h : '.' ∉ name.toList) : '.' ∉ (escape name).toList := by
  rcases escape_cases name with ⟨-, he⟩ | ⟨-, he⟩ <;> simp [he, h]

end

/-! ## Dotted names -/

/-- The segments of a written path are the written segments. -/
theorem split_escapePath (name : String) :
    split '.' (escapePath name) = (split '.' name).map escape := by
  refine split_join (by simpa using split_ne_nil '.' name) ?_
  intro part hpart
  obtain ⟨segment, hsegment, rfl⟩ := List.mem_map.1 hpart
  exact dot_not_mem_escape (not_mem_of_mem_split hsegment)

theorem escapePath_escapePath (name : String) : escapePath (escapePath name) = escapePath name := by
  have htwice : ((split '.' name).map escape).map escape = (split '.' name).map escape := by
    rw [List.map_map]
    refine List.map_congr_left fun segment _ => ?_
    rw [Function.comp_apply]
    exact escape_escape segment
  rw [escapePath, split_escapePath, htwice, escapePath]

/-- What is written in front of the segments of a name. -/
def rootSegments (isGlobal : Bool) : List String := if isGlobal then ["Global"] else []

theorem split_rooted (name : QualifiedName) :
    split '.' (rooted name) = rootSegments name.isGlobal ++ (split '.' name.name).map escape := by
  rw [rooted, rootSegments]
  split
  · have hglobal : split '.' "Global" = ["Global"] := by decide
    rw [show "Global." = "Global" ++ "." from rfl, split_append_dot, split_escapePath, hglobal]
  · rw [split_escapePath, List.nil_append]

/-! ## Reading written names -/

/-- The text without its brackets. -/
def unbracket (text : String) : String :=
  String.ofList (text.toList.filter fun c => c != '[' && c != ']')

theorem unbracket_append (a b : String) : unbracket (a ++ b) = unbracket a ++ unbracket b := by
  simp [unbracket]

theorem unbracket_of_bracketless {text : String} (h : Bracketless text) :
    unbracket text = text := by
  have hkeep : text.toList.filter (fun c => c != '[' && c != ']') = text.toList := by
    refine List.filter_eq_self.2 fun c hc => ?_
    rw [Bool.and_eq_true, bne_iff_ne, bne_iff_ne]
    exact ⟨fun he => h.1 (he ▸ hc), fun he => h.2 (he ▸ hc)⟩
  rw [unbracket, hkeep, String.ofList_toList]

theorem unbracket_escape {name : String} (h : Bracketless name) :
    unbracket (escape name) = name := by
  rcases escape_cases name with ⟨-, he⟩ | ⟨-, he⟩
  · have hopen : unbracket "[" = "" := by decide
    have hclose : unbracket "]" = "" := by decide
    rw [he, unbracket_append, unbracket_append, unbracket_of_bracketless h, hopen, hclose]
    simp
  · rw [he, unbracket_of_bracketless h]

theorem unbracket_join (parts : List String) :
    unbracket (join "." parts) = join "." (parts.map unbracket) := by
  have hdot : unbracket "." = "." := by decide
  rw [join, join]
  induction parts with
  | nil => rfl
  | cons part parts ih =>
    cases parts with
    | nil => simp
    | cons next parts =>
      rw [String.intercalate_cons_cons, unbracket_append, unbracket_append, hdot, ih]
      simp only [List.map_cons, String.intercalate_cons_cons]

/-- No bracket stands in a segment of the name. -/
def BracketlessPath (name : String) : Prop := ∀ segment ∈ split '.' name, Bracketless segment

instance (name : String) : Decidable (BracketlessPath name) :=
  inferInstanceAs (Decidable (∀ segment ∈ split '.' name, Bracketless segment))

theorem unbracket_escapePath {name : String} (h : BracketlessPath name) :
    unbracket (escapePath name) = name := by
  rw [escapePath, unbracket_join, List.map_map]
  have hid : (split '.' name).map (unbracket ∘ escape) = split '.' name := by
    refine (List.map_congr_left fun segment hsegment => ?_).trans (List.map_id _)
    rw [Function.comp_apply, unbracket_escape (h segment hsegment), id_eq]
  rw [hid, join_split]

/-- The name that a text was written for. -/
def readName (text : String) : QualifiedName :=
  if (split '.' text).head? = some "Global" then ⟨unbracket (join "." (split '.' text).tail), true⟩
  else ⟨unbracket text, false⟩

/-- A written name is read back. -/
theorem readName_rooted {name : String} (h : BracketlessPath name) (isGlobal : Bool) :
    readName (rooted ⟨name, isGlobal⟩) = ⟨name, isGlobal⟩ := by
  have hread : unbracket (escapePath name) = name := unbracket_escapePath h
  rw [readName, split_rooted]
  cases isGlobal with
  | true =>
    rw [rootSegments, if_pos rfl, if_pos (by simp), List.singleton_append, List.tail_cons]
    rw [escapePath] at hread
    rw [hread]
  | false =>
    -- a first segment `Global` of the name itself stands in brackets
    have hroot : ((split '.' name).map escape).head? ≠ some "Global" := by
      rw [List.head?_map]
      intro he
      obtain ⟨segment, -, hsegment⟩ := Option.map_eq_some_iff.1 he
      exact escape_ne_global segment hsegment
    rw [rootSegments, if_neg Bool.false_ne_true, List.nil_append, if_neg hroot, rooted,
      if_neg Bool.false_ne_true, hread]

/-- A type name is written in one way that no other name shares, with or without the global root:
the written text starts with the root exactly if it is asked for, and without the brackets its other
segments are the name. They are reserved words in brackets or no reserved words, but for a `GoSub`
that stands bare, so all of them are safe exactly if the name has no segment `GoSub`. Writing a
written path again changes nothing. -/
theorem rooted_unambiguous (a : String) (g : Bool) :
    (BracketlessPath a →
      (∀ (b : String) (h : Bool), BracketlessPath b → rooted ⟨a, g⟩ = rooted ⟨b, h⟩ →
        a = b ∧ g = h) ∧
      ∃ own, split '.' (rooted ⟨a, g⟩) = rootSegments g ++ own ∧ unbracket (join "." own) = a ∧
        (∀ segment ∈ own, IsSafe segment ∨ IsGoSub segment) ∧
        ((∀ segment ∈ own, IsSafe segment) ↔ ∀ segment ∈ split '.' a, ¬ IsGoSub segment)) ∧
    escapePath (escapePath a) = escapePath a := by
  refine ⟨fun ha => ⟨fun b h hb he => ?_, ?_⟩, escapePath_escapePath a⟩
  · have hread := congrArg readName he
    rw [readName_rooted ha g, readName_rooted hb h] at hread
    exact QualifiedName.mk.inj hread
  · refine ⟨(split '.' a).map escape, split_rooted ⟨a, g⟩, unbracket_escapePath ha, ?_, ?_⟩
    · intro segment hsegment
      obtain ⟨own, hown, rfl⟩ := List.mem_map.1 hsegment
      by_cases hgosub : IsGoSub own
      · right
        rwa [hgosub.escape_eq]
      · left
        exact (isSafe_escape_iff (ha own hown)).2 hgosub
    · rw [List.forall_mem_map]
      exact forall₂_congr fun own hown => isSafe_escape_iff (ha own hown)

/-- In a namespace `Global` the written name is not taken for one behind the root. -/
theorem globalOption_unambiguous :
    (BracketlessPath "Global.Option" ∧ BracketlessPath "Option") ∧
      rooted ⟨"Global.Option", false⟩ ≠ rooted ⟨"Option", true⟩ ∧
      ∃ own, split '.' (rooted ⟨"Global.Option", true⟩) = "Global" :: own ∧
        unbracket (join "." own) = "Global.Option" ∧ ∀ segment ∈ own, IsSafe segment := by
  have hspace : BracketlessPath "Global.Option" := by decide
  have hplain : BracketlessPath "Option" := by decide
  refine ⟨⟨hspace, hplain⟩, fun he => ?_, ?_⟩
  · have hnames := (((rooted_unambiguous _ _).1 hspace).1 _ _ hplain he).1
    exact absurd hnames (by decide)
  · obtain ⟨own, hsplit, hname, -, hsafe⟩ := ((rooted_unambiguous _ true).1 hspace).2
    exact ⟨own, hsplit, hname, hsafe.2 (by decide)⟩

/-- `GoSub` is a reserved word and is written without brackets. -/
theorem goSub_bare :
    BracketlessPath "Acme.GoSub" ∧ rooted ⟨"Acme.GoSub", false⟩ = "Acme.GoSub" ∧
      IsReserved "GoSub" ∧
      ¬ ∀ segment ∈ split '.' (rooted ⟨"Acme.GoSub", false⟩), IsSafe segment := by
  have hwritten : rooted ⟨"Acme.GoSub", false⟩ = "Acme.GoSub" := by decide
  have hreserved : IsReserved "GoSub" := ⟨"GoSub", by decide, rfl⟩
  refine ⟨by decide, hwritten, hreserved, fun hsafe => ?_⟩
  have hmem : "GoSub" ∈ split '.' (rooted ⟨"Acme.GoSub", false⟩) := by
    rw [hwritten]
    decide
  exact (isSafe_iff_of_bracketless (by decide)).1 (hsafe _ hmem) hreserved

end ProtoStub.VisualBasic
