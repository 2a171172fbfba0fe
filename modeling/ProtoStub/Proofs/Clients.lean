import ProtoStub.VisualBasic.Unit
import ProtoStub.Proofs.Cutting
import Mathlib.Data.List.Infix

/-!
# The code of clients

A client class is made of lines of which three kinds matter for where requests go: constructors,
statements that return something, and declarations of local variables. `lineKind` tells them by how
they start, and what a template inserts behind its start does not change the kind
(`lineKind_append`). From that follows what the lines of each kind are in a class that is built
from a utility (`delegates_clientLines`) and in one that has the request helper itself
(`inlines_clientLines`). A request helper declares variables and a class without one does not, so
the text of the former cannot lie in the latter.
-/

namespace ProtoStub.Text

/-- A line that stands between two line breaks of a text is one of its lines. -/
theorem mem_split_of_infix {c : Char} {s line : String} (hline : c ∉ line.toList)
    (h : c :: line.toList ++ [c] <:+: s.toList) : line ∈ split c s := by
  obtain ⟨before, after, hs⟩ := h
  have hcut : s = String.ofList before ++ String.singleton c ++ line ++ String.singleton c ++
      String.ofList after := by
    apply String.toList_inj.1
    rw [← hs]
    simp
  rw [hcut, split_append_singleton, split_append_singleton, split_of_not_mem hline]
  simp

end ProtoStub.Text

namespace ProtoStub.VisualBasic

open Text

/-! ## Kinds of lines -/

/-- What a line of a class does, as far as it matters for where requests go. -/
inductive LineKind where
  /-- It declares a constructor. -/
  | construct
  /-- It returns something from a function. -/
  | result
  /-- It declares a variable. -/
  | variable
  | other
  deriving DecidableEq

/-- How the lines of each kind start, behind the margin. -/
def lineMarks : List (List Char × LineKind) :=
  [("Public Sub New(".toList, .construct), ("Return ".toList, .result), ("Dim ".toList, .variable)]

/-- The kind of the line with the characters `cs`. -/
def kindOfChars (cs : List Char) : LineKind :=
  ((lineMarks.filter fun mark => mark.1.isPrefixOf (cs.dropWhile (· == ' '))).head?.map
    (·.2)).getD .other

/-- The kind of a line. -/
def lineKind (line : String) : LineKind := kindOfChars line.toList

/-- The start `cs` of a line decides the kind of the line: it goes beyond the margin, and no mark
goes on where it ends. -/
def decidesKind (cs : List Char) : Bool :=
  let code := cs.dropWhile (· == ' ')
  !code.isEmpty && lineMarks.all fun mark => mark.1.isPrefixOf code || !code.isPrefixOf mark.1

/-- What follows the start of a line does not change its kind. -/
theorem lineKind_append (cs : List Char) (t : String) (h : decidesKind cs = true) :
    lineKind (String.ofList cs ++ t) = kindOfChars cs := by
  rw [decidesKind, Bool.and_eq_true, List.all_eq_true] at h
  obtain ⟨hcode, hmarks⟩ := h
  have hdrop : (cs ++ t.toList).dropWhile (· == ' ') = cs.dropWhile (· == ' ') ++ t.toList := by
    rw [List.dropWhile_append, if_neg (by simpa using hcode)]
  have hmark : ∀ mark ∈ lineMarks, mark.1.isPrefixOf (cs.dropWhile (· == ' ') ++ t.toList) =
      mark.1.isPrefixOf (cs.dropWhile (· == ' ')) := by
    intro mark hm
    rw [Bool.eq_iff_iff, List.isPrefixOf_iff_prefix, List.isPrefixOf_iff_prefix]
    refine ⟨fun hlong => ?_, fun hshort => hshort.trans (List.prefix_append _ _)⟩
    rcases Bool.or_eq_true_iff.1 (hmarks mark hm) with hp | hp
    · exact List.isPrefixOf_iff_prefix.1 hp
    · rcases List.prefix_or_prefix_of_prefix hlong (List.prefix_append _ _) with hq | hq
      · exact hq
      · rw [List.isPrefixOf_iff_prefix.2 hq] at hp
        cases hp
  rw [lineKind, String.toList_append, String.toList_ofList, kindOfChars, kindOfChars, hdrop,
    List.filter_congr hmark]

theorem lineKind_ofList (cs : List Char) : lineKind (String.ofList cs) = kindOfChars cs := by
  rw [lineKind, String.toList_ofList]

/-! ## What methods return -/

/-- The statements of the functions of `m` that send its request. -/
def postLines (profile : Profile) (call : String) (m : ClientMethod) : List String :=
  match profile with
  | .async =>
    let post := call ++ "PostJsonAsync(Of " ++ m.response ++ ")(\"" ++ m.route ++ "\", request, "
    ["            Return " ++ post ++ "cancellationToken)",
      "                Return Await " ++ post ++ "cts.Token).ConfigureAwait(False)"]
  | .sync =>
    ["            Return " ++ call ++ "PostJson(Of " ++ m.response ++ ")(\"" ++ m.route ++
      "\", request, timeout)"]

/-- The statements of the functions of `m` that return something: one calls another of them, the
others send the request. -/
def returnLines (profile : Profile) (call : String) (m : ClientMethod) : List String :=
  match profile with
  | .async => ("            Return " ++ m.name ++ "(request, CancellationToken.None)") ::
      postLines .async call m
  | .sync => ("            Return " ++ m.name ++ "(request, " ++ call ++ "Timeout)") ::
      postLines .sync call m

/-- The functions of a method return what `returnLines` says, and have no constructors and no
variables. -/
theorem filter_methodLines (profile : Profile) (call : String) (m : ClientMethod) {kind : LineKind}
    (hkind : kind ≠ .other) :
    (methodLines profile call m).filter (lineKind · = kind) =
      if kind = .result then returnLines profile call m else [] := by
  have hblank : lineKind "" = .other := lineKind_ofList _
  have hfunction : ∀ t, lineKind ("        Public Function " ++ t) = .other :=
    fun t => lineKind_append _ t (by decide)
  have hreturn : ∀ t, lineKind ("            Return " ++ t) = .result :=
    fun t => lineKind_append _ t (by decide)
  have hend : lineKind "        End Function" = .other := lineKind_ofList _
  cases profile with
  | async =>
    have hasync : ∀ t, lineKind ("        Public Async Function " ++ t) = .other :=
      fun t => lineKind_append _ t (by decide)
    have hrefuse : lineKind ("            If request Is Nothing Then Throw New " ++
        "ArgumentNullException(NameOf(request))") = .other := lineKind_append _ _ (by decide)
    have husing : lineKind ("            Using cts As CancellationTokenSource = " ++
        "CancellationTokenSource.CreateLinkedTokenSource(cancellationToken)") = .other :=
      lineKind_append _ _ (by decide)
    have hcancel : lineKind "                cts.CancelAfter(timeout)" = .other := lineKind_ofList _
    have hawait : ∀ t, lineKind ("                Return Await " ++ t) = .result :=
      fun t => lineKind_append _ t (by decide)
    have hclose : lineKind "            End Using" = .other := lineKind_ofList _
    cases kind <;> simp_all [methodLines, returnLines, postLines, String.append_assoc]
  | sync =>
    have hrefuse : lineKind
        "            If request Is Nothing Then Throw New ArgumentNullException(\"request\")" =
        .other := lineKind_ofList _
    cases kind <;> simp_all [methodLines, returnLines, postLines, String.append_assoc]

/-! ## Classes -/

/-- `text` has `part` in it. -/
def Contains (text part : String) : Prop := part.toList <:+: text.toList

/-- The class with the lines `lines` is built from a utility of the type `type` and sends the
requests of its methods through it, and has no request helper. -/
structure Delegates (profile : Profile) (type : String) (c : Client) (lines : List String) :
    Prop where
  state : "        Private ReadOnly _http As " ++ type ∈ lines
  constructors : lines.filter (lineKind · = .construct) =
    ["        Public Sub New(http As " ++ type ++ ")"]
  returns : lines.filter (lineKind · = .result) = c.methods.flatMap (returnLines profile "_http.")
  no_helper : ∀ access, ¬ helperLines profile access <:+: lines
  no_helper_text : (∀ line ∈ lines, '\n' ∉ line.toList) →
    ∀ access, ¬ Contains (textOfLines lines) (helperText profile access)

/-- The class with the lines `lines` has the request helper and sends the requests of its methods
through it. -/
structure Inlines (profile : Profile) (c : Client) (lines : List String) : Prop where
  returns : lines.filter (lineKind · = .result) = c.methods.flatMap (returnLines profile "")
  helper : Contains (textOfLines lines) (helperText profile "Private")

/-- The methods of a client return what `returnLines` says, and have no constructors and no
variables. -/
theorem filter_flatMap_methodLines (profile : Profile) (call : String) (ms : List ClientMethod)
    {kind : LineKind} (hkind : kind ≠ .other) :
    (ms.flatMap (methodLines profile call)).filter (lineKind · = kind) =
      if kind = .result then ms.flatMap (returnLines profile call) else [] := by
  simp only [List.filter_flatMap, filter_methodLines _ _ _ hkind]
  split <;> simp

/-- The state of a class that is built from a utility has one constructor, and neither returns nor
declares variables. -/
theorem filter_utilityStateLines (profile : Profile) (type : String) {kind : LineKind}
    (hkind : kind ≠ .other) :
    (utilityStateLines profile type).filter (lineKind · = kind) =
      if kind = .construct then ["        Public Sub New(http As " ++ type ++ ")"] else [] := by
  have hblank : lineKind "" = .other := lineKind_ofList _
  have hfield : ∀ t, lineKind ("        Private ReadOnly _http As " ++ t) = .other :=
    fun t => lineKind_append _ t (by decide)
  have hnew : ∀ t, lineKind ("        Public Sub New(http As " ++ t) = .construct :=
    fun t => lineKind_append _ t (by decide)
  have hrefuse : ∀ t, lineKind
      ("            If http Is Nothing Then Throw New ArgumentNullException(" ++ t) = .other :=
    fun t => lineKind_append _ t (by decide)
  have hassign : lineKind "            _http = http" = .other := lineKind_ofList _
  have hend : lineKind "        End Sub" = .other := lineKind_ofList _
  cases kind <;> simp_all [utilityStateLines, String.append_assoc]

/-- A request helper declares a variable in its second line. -/
theorem exists_variable (profile : Profile) (access : String) : ∃ first line rest,
    helperLines profile access = first :: line :: rest ∧ rest ≠ [] ∧ lineKind line = .variable ∧
      '\n' ∉ line.toList := by
  cases profile with
  | async =>
    have hkind : lineKind "            Dim body As String = JsonConvert.SerializeObject(request)" =
        .variable := lineKind_ofList _
    have hline : '\n' ∉
        "            Dim body As String = JsonConvert.SerializeObject(request)".toList := by
      rw [String.toList_ofList]
      decide
    exact ⟨_, _, _, rfl, List.cons_ne_nil _ _, hkind, hline⟩
  | sync =>
    have hkind : lineKind ("            Dim payload As Byte() = " ++
        "Encoding.UTF8.GetBytes(JsonConvert.SerializeObject(request))") = .variable :=
      lineKind_append _ _ (by decide)
    have hline : '\n' ∉ ("            Dim payload As Byte() = " ++
        "Encoding.UTF8.GetBytes(JsonConvert.SerializeObject(request))").toList := by
      rw [String.toList_append, String.toList_ofList, String.toList_ofList]
      decide
    exact ⟨_, _, _, rfl, List.cons_ne_nil _ _, hkind, hline⟩

/-- The text of a request helper has a line that declares a variable between two line breaks. -/
theorem exists_variable_infix (profile : Profile) (access : String) : ∃ line,
    lineKind line = .variable ∧ '\n' ∉ line.toList ∧
      '\n' :: line.toList ++ ['\n'] <:+: (helperText profile access).toList := by
  obtain ⟨first, line, rest, hlines, hrest, hkind, hline⟩ := exists_variable profile access
  refine ⟨line, hkind, hline, first.toList, ("\n".intercalate rest).toList, ?_⟩
  rw [helperText, hlines, String.intercalate_cons_cons, String.intercalate_cons_of_ne_nil hrest]
  simp

/-- A line of a class lies in its text. -/
theorem contains_textOfLines {lines : List String} {line : String} (h : line ∈ lines) :
    Contains (textOfLines lines) line := by
  induction lines with
  | nil => cases h
  | cons first rest ih =>
    rcases List.mem_cons.1 h with rfl | h
    · cases rest with
      | nil => simp [Contains, textOfLines, join]
      | cons next rest =>
        rw [Contains, textOfLines, join, String.intercalate_cons_cons, String.toList_append,
          String.toList_append, List.append_assoc]
        exact (List.prefix_append _ _).isInfix
    · have hne : rest ≠ [] := List.ne_nil_of_mem h
      have hin := ih h
      rw [Contains, textOfLines, join] at hin ⊢
      rw [String.intercalate_cons_of_ne_nil hne, String.toList_append]
      exact hin.trans (List.suffix_append _ _).isInfix

/-- The start of a private request helper is no statement. -/
theorem lineKind_helperText (profile : Profile) :
    lineKind (helperText profile "Private") = .other := by
  have hstart : "        " ++ "Private" = "        Private" := rfl
  cases profile with
  | async =>
    rw [helperText, helperLines, asyncHelperLines, String.intercalate_cons_cons, hstart]
    simp only [String.append_assoc]
    exact lineKind_append _ _ (by decide)
  | sync =>
    rw [helperText, helperLines, syncHelperLines, String.intercalate_cons_cons, hstart]
    simp only [String.append_assoc]
    exact lineKind_append _ _ (by decide)

/-- A class that is given a utility is built from it and sends its requests through it. -/
theorem delegates_clientLines (profile : Profile) (type : String) (c : Client) :
    Delegates profile type c (clientLines profile (.utility type) c) := by
  have hhead : lineKind ("    Public Class " ++ c.name) = .other := lineKind_append _ _ (by decide)
  have hend : lineKind "    End Class" = .other := lineKind_ofList _
  have hfilter : ∀ {kind}, kind ≠ .other →
      (clientLines profile (.utility type) c).filter (lineKind · = kind) =
        (if kind = .construct then ["        Public Sub New(http As " ++ type ++ ")"] else []) ++
        if kind = .result then c.methods.flatMap (returnLines profile "_http.") else [] := by
    intro kind hkind
    rw [clientLines, List.cons_append, List.cons_append,
      List.filter_cons_of_neg (by simp [hhead, hkind.symm]), List.filter_append,
      List.filter_append, filter_utilityStateLines _ _ hkind,
      filter_flatMap_methodLines _ _ _ hkind, List.filter_cons_of_neg (by simp [hend, hkind.symm]),
      List.filter_nil, List.append_nil]
  have hvariables : ∀ line ∈ clientLines profile (.utility type) c, lineKind line ≠ .variable := by
    have hnone := @hfilter .variable (by decide)
    rw [if_neg (by decide), if_neg (by decide), List.append_nil, List.filter_eq_nil_iff] at hnone
    intro line hline hkind
    exact hnone line hline (by simpa using hkind)
  refine ⟨?_, ?_, ?_, ?_, ?_⟩
  · simp [clientLines, utilityStateLines]
  · rw [hfilter (by decide), if_pos rfl, if_neg (by decide), List.append_nil]
  · rw [hfilter (by decide), if_neg (by decide), if_pos rfl, List.nil_append]
  · intro access hin
    obtain ⟨first, line, rest, hlines, -, hkind, -⟩ := exists_variable profile access
    have hmem : line ∈ helperLines profile access := by simp [hlines]
    exact hvariables line (hin.subset hmem) hkind
  · intro hbreaks access hin
    obtain ⟨line, hkind, hline, hhelper⟩ := exists_variable_infix profile access
    have hmem := mem_split_of_infix hline (hhelper.trans hin)
    have hnewline : "\n" = String.singleton '\n' := rfl
    rw [textOfLines, hnewline, split_join (by simp [clientLines]) hbreaks] at hmem
    exact hvariables line hmem hkind

/-- A class that holds its connection has no statement of its own that returns something. -/
theorem filter_stateLines (profile : Profile) :
    (stateLines profile).filter (lineKind · = .result) = [] := by
  rw [List.filter_eq_nil_iff]
  cases profile <;> simp only [stateLines, List.forall_mem_cons]
  all_goals
    refine ⟨?_, ?_, ?_, ?_, ?_, ?_, ?_, ?_, ?_, by simp⟩ <;>
      first
      | rw [lineKind_ofList]; decide
      | rw [lineKind_append _ _ (by decide)]; decide

/-- A class that is given no utility has the request helper and sends its requests through it. -/
theorem inlines_clientLines (profile : Profile) (c : Client) :
    Inlines profile c (clientLines profile (.inline (helperText profile "Private")) c) := by
  have hhead : lineKind ("    Public Class " ++ c.name) = .other := lineKind_append _ _ (by decide)
  have hblank : lineKind "" = .other := lineKind_ofList _
  have hend : lineKind "    End Class" = .other := lineKind_ofList _
  have hhelper := lineKind_helperText profile
  refine ⟨?_, contains_textOfLines (by simp [clientLines])⟩
  rw [clientLines, List.cons_append, List.cons_append, List.filter_cons_of_neg (by simp [hhead]),
    List.filter_append, List.filter_append, filter_stateLines,
    filter_flatMap_methodLines _ _ _ (by decide), if_pos rfl]
  simp [hblank, hend, hhelper]

end ProtoStub.VisualBasic
