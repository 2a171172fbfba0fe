import ProtoStub.Name

/-!
# Routes

Every procedure is posted to a route made of the base name of its file, its own name in kebab case
and its version: `orders/place-order/v2`. A name without version suffix has version one.
-/

namespace ProtoStub

open Text

/-- A hyphen belongs between the neighbours `prev` and `c` of a name, where `next` follows `c`:
before a capital that starts a word, and between a letter and a digit, except inside `N2`. -/
def kebabBreak (prev c : Char) (next : Option Char) : Bool :=
  if isUpper c then !isUpper prev || next.any isLower
  else if isDigit c && isLetter prev then !(prev == 'N' && c == '2')
  else isLetter c && isDigit prev

/-- The part of a name after the character `prev`, in kebab case. -/
def kebabTail (prev : Char) : List Char → List Char
  | [] => []
  | c :: cs =>
    if kebabBreak prev c cs.head? then '-' :: toLower c :: kebabTail c cs
    else toLower c :: kebabTail c cs

/-- A name without word marks, in kebab case. -/
def kebabWord : List Char → List Char
  | [] => []
  | c :: cs => toLower c :: kebabTail c cs

/-- Two hyphens stand side by side. -/
def hasDoubleHyphen : List Char → Bool
  | a :: b :: cs => (a == '-' && b == '-') || hasDoubleHyphen (b :: cs)
  | _ => false

/-- The text with one hyphen for each two side by side, taken from the left. -/
def halveHyphens : List Char → List Char
  | a :: b :: cs =>
    if a == '-' && b == '-' then '-' :: halveHyphens cs else a :: halveHyphens (b :: cs)
  | cs => cs

theorem length_halveHyphens_le (cs : List Char) : (halveHyphens cs).length ≤ cs.length := by
  fun_induction halveHyphens cs with
  | case1 a b cs _ ih => simp only [List.length_cons]; omega
  | case2 a b cs _ ih => simp only [List.length_cons] at ih ⊢; omega
  | case3 cs => exact Nat.le_refl _

theorem length_halveHyphens_lt {cs : List Char} (h : hasDoubleHyphen cs = true) :
    (halveHyphens cs).length < cs.length := by
  fun_induction halveHyphens cs with
  | case1 a b cs _ _ =>
    have hle := length_halveHyphens_le cs
    simp only [List.length_cons]
    omega
  | case2 a b cs hpair ih =>
    rw [hasDoubleHyphen, Bool.eq_false_iff.2 hpair, Bool.false_or] at h
    exact Nat.succ_lt_succ (ih h)
  | case3 cs hshort =>
    unfold hasDoubleHyphen at h
    split at h
    · exact absurd rfl (hshort _ _ _)
    · cases h

/-- The text with one hyphen wherever several stand side by side. -/
def collapseHyphens (cs : List Char) : List Char :=
  if hasDoubleHyphen cs then collapseHyphens (halveHyphens cs) else cs
termination_by cs.length
decreasing_by exact length_halveHyphens_lt ‹_›

/-- A name in kebab case. Word marks become hyphens; a name with marks gets no other ones. -/
def kebabChars (cs : List Char) : List Char :=
  if cs.any isWordMark then ['-'].intercalate ((wordsOf cs).map (·.map toLower))
  else collapseHyphens (kebabWord cs)

/-- A name in kebab case. -/
def kebabCase (name : String) : String := String.ofList (kebabChars name.toList)

/-- The number that decimal digits spell. -/
def decimalValue (ds : List Char) : Nat :=
  ds.foldl (fun n d => n * 10 + (d.toNat - '0'.toNat)) 0

/-- The largest version number. -/
def maxVersion : Nat := 0x7FFFFFFFFFFFFFFF

/-- The stem and the version of a procedure name. The version stands behind a final `V`, after a
stem that is not empty; zero and numbers beyond `maxVersion` count as one. -/
def splitVersion (name : String) : String × Nat :=
  let reversed := name.toList.reverse
  let digits := (reversed.takeWhile (·.isDigit)).reverse
  match reversed.dropWhile (·.isDigit) with
  | v :: stem =>
    if v == 'V' && !stem.isEmpty && !digits.isEmpty then
      let n := decimalValue digits
      (String.ofList stem.reverse, if n < 1 || maxVersion < n then 1 else n)
    else (name, 1)
  | [] => (name, 1)

/-- The route of a procedure. -/
def route (baseName method : String) : String :=
  let (stem, version) := splitVersion method
  baseName ++ "/" ++ kebabCase stem ++ "/v" ++ toString version

end ProtoStub
