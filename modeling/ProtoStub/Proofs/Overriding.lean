import ProtoStub.Settings.Flag
import ProtoStub.Proofs.Tables
import Mathlib.Data.List.TakeWhile

/-!
# Flags override settings one by one

`Flags.Reads` says how arguments are read, in all the spellings: which flags occur in them, with
which values, and what stands behind. There is one reading (`Flags.Reads.unique`), and parsing
assigns the values of that reading one after another (`Flags.parseFrom_reads`).

One assignment changes one setting (`Flags.overrides_assignSetting`). So after all of them a setting
holds the last value given for it, a list holds all values, and a setting without a value is at its
default (`Flags.gathers_gather`). The flags that were set are known by name, and names are copied as
they are assigned (`Settings.value_copy`). So only settings with a value are copied over the
settings below (`Flags.value_applyTo`), and no default gets there
(`Flags.overrides_applyTo_of_parse`).
-/

namespace ProtoStub

open Text

/-! ## Cutting at a character -/

section
variable {c : Char} {s a : String}

/-- A text is cut at the first of its marks. -/
theorem cut_append (h : c ∉ a.toList) (b : String) :
    cut c (a ++ String.singleton c ++ b) = (a, some b) := by
  have hpass : ∀ d ∈ a.toList, (d != c) = true := fun d hd => bne_iff_ne.2 fun he => h (he ▸ hd)
  have htake : (a ++ String.singleton c ++ b).toList.takeWhile (· != c) = a.toList := by
    simp [List.takeWhile_append_of_pos hpass]
  rw [cut, htake]
  simp

theorem cut_of_notMem (h : c ∉ s.toList) : cut c s = (s, none) := by
  have hpass : ∀ d ∈ s.toList, (d != c) = true := fun d hd => bne_iff_ne.2 fun he => h (he ▸ hd)
  rw [cut, List.takeWhile_eq_self_iff.2 hpass]
  simp

end

namespace Flags

/-! ## Arguments -/

/-- One hyphen or two: they mean the same before the name of a flag. -/
def IsHyphens (s : String) : Prop := s = "-" ∨ s = "--"

/-- How arguments are read when `known` are the flags: the flags that occur with their values, and
the arguments behind them. -/
inductive Reads (known : List Flag) :
    (arguments : List String) → (occurrences : List (Flag × String)) → (rest : List String) → Prop
  | nil : Reads known [] [] []
  /-- An argument without a hyphen, or a hyphen alone, ends the flags. -/
  | plain {argument : String} {rest : List String}
    (h : startsWith argument "-" = false ∨ argument = "-") :
    Reads known (argument :: rest) [] (argument :: rest)
  /-- Two hyphens alone end the flags, and are not among the rest. -/
  | finish {rest : List String} : Reads known ("--" :: rest) [] rest
  | switch {hyphens : String} {flag : Flag} {arguments rest : List String}
    {occurrences : List (Flag × String)} (hh : IsHyphens hyphens) (hflag : flag ∈ known)
    (hs : flag.isSwitch = true) (h : Reads known arguments occurrences rest) :
    Reads known ((hyphens ++ flag.name) :: arguments) ((flag, "true") :: occurrences) rest
  | joined {hyphens value : String} {flag : Flag} {arguments rest : List String}
    {occurrences : List (Flag × String)} (hh : IsHyphens hyphens) (hflag : flag ∈ known)
    (h : Reads known arguments occurrences rest) :
    Reads known ((hyphens ++ flag.name ++ "=" ++ value) :: arguments)
      ((flag, value) :: occurrences) rest
  | apart {hyphens value : String} {flag : Flag} {arguments rest : List String}
    {occurrences : List (Flag × String)} (hh : IsHyphens hyphens) (hflag : flag ∈ known)
    (hs : flag.isSwitch = false) (h : Reads known arguments occurrences rest) :
    Reads known ((hyphens ++ flag.name) :: value :: arguments) ((flag, value) :: occurrences) rest

/-- What can stand between the hyphens and the value: it starts with no hyphen and has no equals
sign. -/
def IsFlagName (name : String) : Prop :=
  name ≠ "" ∧ startsWith name "-" = false ∧ '=' ∉ name.toList

instance (name : String) : Decidable (IsFlagName name) :=
  inferInstanceAs (Decidable (_ ∧ _ ∧ _))

/-- The value of a flag as it stands behind its name. -/
def suffix : Option String → String
  | none => ""
  | some value => "=" ++ value

/-- The names of all flags can be written as names of flags. -/
theorem isFlagName_name (flag : Flag) : IsFlagName flag.name := by
  rcases flag with k | _ | _
  · cases k <;> decide
  · decide
  · decide

/-- Flags are told apart by their names. -/
theorem name_inj {flag flag' : Flag} (h : flag.name = flag'.name) : flag = flag' := by
  have hfind : ∀ flag : Flag, Flag.all.find? (·.name == flag.name) = some flag := by
    rintro (k | _ | _)
    · cases k <;> decide
    · decide
    · decide
  have hsame := hfind flag
  rw [h, hfind flag'] at hsame
  exact (Option.some.inj hsame).symm

theorem find?_name {known : List Flag} {flag : Flag} (h : flag ∈ known) :
    known.find? (·.name == flag.name) = some flag := by
  have hsome : (known.find? (·.name == flag.name)).isSome = true :=
    List.find?_isSome.2 ⟨flag, h, by simp⟩
  obtain ⟨found, hfound⟩ := Option.isSome_iff_exists.1 hsome
  have hname : found.name = flag.name := by simpa using List.find?_some hfound
  rw [hfound, name_inj hname]

/-- Behind the hyphens the name and the value of a flag are parted by the first equals sign. -/
theorem classify_hyphens {argument hyphens : String} {c : Char} {cs : List Char}
    (hh : IsHyphens hyphens) (htext : argument.toList = hyphens.toList ++ c :: cs)
    (hhyphen : c ≠ '-') (hequals : c ≠ '=') :
    classify argument =
      .flag (cut '=' (String.ofList (c :: cs))).1 (cut '=' (String.ofList (c :: cs))).2 := by
  have hproper : (c == '-' || c == '=') = false := by simp [hhyphen, hequals]
  rcases hh with rfl | rfl
  · have htwo : argument.toList = '-' :: c :: cs := htext
    rw [classify, htwo]
    split
    · simp_all
    · simp_all
    · rename_i heq
      obtain ⟨-, rfl, rfl⟩ : '-' = '-' ∧ c = _ ∧ cs = _ := by simpa using heq
      simp only [hproper, Bool.false_eq_true, if_false]
    · simp_all
  · have hthree : argument.toList = '-' :: '-' :: c :: cs := htext
    simp only [classify, hthree, hproper, Bool.false_eq_true, if_false]

/-- A flag is told from its argument. -/
theorem classify_flag {hyphens name : String} (hh : IsHyphens hyphens) (hname : IsFlagName name)
    (value : Option String) : classify (hyphens ++ name ++ suffix value) = .flag name value := by
  obtain ⟨hne, hhyphen, hequals⟩ := hname
  obtain ⟨c, cs, hcs⟩ := List.exists_cons_of_ne_nil (mt String.toList_eq_nil_iff.1 hne)
  have htext : (hyphens ++ name ++ suffix value).toList =
      hyphens.toList ++ c :: (cs ++ (suffix value).toList) := by
    simp [hcs]
  have hsame : String.ofList (c :: (cs ++ (suffix value).toList)) = name ++ suffix value := by
    apply String.toList_inj.1
    simp [hcs]
  have hcut : cut '=' (name ++ suffix value) = (name, value) := by
    cases value with
    | none => rw [suffix, String.append_empty, cut_of_notMem hequals]
    | some value =>
      rw [suffix, ← String.append_assoc]
      exact cut_append hequals value
  rw [classify_hyphens hh htext, hsame, hcut]
  · rintro rfl
    simp [startsWith, hcs] at hhyphen
  · rintro rfl
    simp [hcs] at hequals

theorem eq_cut_append_suffix (s : String) : s = (cut '=' s).1 ++ suffix (cut '=' s).2 := by
  by_cases hmem : '=' ∈ s.toList
  · obtain ⟨front, back, hs, hfront⟩ := List.eq_append_cons_of_mem hmem
    have hcut : s = String.ofList front ++ String.singleton '=' ++ String.ofList back := by
      apply String.toList_inj.1
      simp [hs]
    rw [hcut, cut_append (by simpa using hfront), suffix, String.append_assoc]
    rfl
  · simp [cut_of_notMem hmem, suffix]

/-- The spellings that an argument has, given what it is. -/
def Argument.Spelled (argument : String) : Argument → Prop
  | .plain => startsWith argument "-" = false ∨ argument = "-"
  | .finish => argument = "--"
  | .malformed => True
  | .flag name value =>
    ∃ hyphens, IsHyphens hyphens ∧ argument = hyphens ++ name ++ suffix value

/-- Every argument is spelled as what it is classified as. -/
theorem spelled_classify (argument : String) : (classify argument).Spelled argument := by
  -- with one hyphen or two, the name and the value are cut from what stands behind
  have hflag : ∀ {hyphens : String} {cs : List Char}, IsHyphens hyphens →
      argument.toList = hyphens.toList ++ cs →
      (Argument.flag (cut '=' (String.ofList cs)).1 (cut '=' (String.ofList cs)).2).Spelled
        argument := by
    intro hyphens cs hh htext
    refine ⟨hyphens, hh, ?_⟩
    rw [String.append_assoc, ← eq_cut_append_suffix]
    exact String.toList_inj.1 (by simpa using htext)
  fun_cases classify argument with
  | case1 htext => exact String.toList_inj.1 htext
  | case2 named cs _ htext =>
    simp only [named]
    split
    · trivial
    · split
      · trivial
      · exact hflag (.inr rfl) htext
  | case3 named c cs _ _ htext =>
    simp only [named]
    split
    · trivial
    · exact hflag (.inl rfl) htext
  | case4 _ _ hshort =>
    rw [Argument.Spelled, startsWith]
    match htext : argument.toList with
    | [] => exact .inl rfl
    | [c] =>
      by_cases hc : c = '-'
      · rw [hc] at htext
        exact .inr (String.toList_inj.1 htext)
      · exact .inl (by simp [List.isPrefixOf, Ne.symm hc])
    | c :: d :: cs =>
      have hc : c ≠ '-' := by
        rintro rfl
        exact hshort d cs htext
      exact .inl (by simp [List.isPrefixOf, Ne.symm hc])

theorem classify_plain {argument : String} (h : startsWith argument "-" = false ∨ argument = "-") :
    classify argument = .plain := by
  rcases h with h | rfl
  · fun_cases classify argument <;> simp_all [startsWith]
  · simp [classify]

/-! ## Readings -/

section
variable {known : List Flag} {arguments rest left last : List String} {flag : Flag}
  {occurrences : List (Flag × String)} {value : Option String} {text : String}

/-- The value that a flag takes, from behind its name or from the arguments that follow, and the
arguments that are left. -/
def taken? (flag : Flag) (value : Option String) (rest : List String) :
    Option (String × List String) :=
  match value, rest with
  | some value, rest => some (value, rest)
  | none, rest =>
    if flag.isSwitch then some ("true", rest)
    else match rest with
      | [] => none
      | value :: rest => some (value, rest)

theorem length_le_of_taken (h : taken? flag value rest = some (text, left)) :
    left.length ≤ rest.length := by
  revert h
  fun_cases taken? flag value rest <;> grind

/-- The three ways of giving a flag its value. -/
theorem reads_flag {hyphens : String} (hh : IsHyphens hyphens) (hflag : flag ∈ known)
    (htaken : taken? flag value rest = some (text, left)) (h : Reads known left occurrences last) :
    Reads known ((hyphens ++ flag.name ++ suffix value) :: rest)
      ((flag, text) :: occurrences) last := by
  cases value with
  | some value =>
    obtain ⟨rfl, rfl⟩ : value = text ∧ rest = left := by simpa [taken?] using htaken
    rw [suffix, ← String.append_assoc]
    exact .joined hh hflag h
  | none =>
    rw [suffix, String.append_empty]
    by_cases hs : flag.isSwitch = true
    · obtain ⟨rfl, rfl⟩ : "true" = text ∧ rest = left := by simpa [taken?, hs] using htaken
      exact .switch hh hflag hs h
    · cases rest with
      | nil => simp [taken?, hs] at htaken
      | cons value rest =>
        obtain ⟨rfl, rfl⟩ : value = text ∧ rest = left := by simpa [taken?, hs] using htaken
        exact .apart hh hflag (by simpa using hs) h

/-- What a reading says of the first argument. -/
theorem Reads.of_cons {argument : String} (h : Reads known (argument :: rest) occurrences last) :
    match classify argument with
    | .plain => occurrences = [] ∧ last = argument :: rest
    | .finish => occurrences = [] ∧ last = rest
    | .malformed => False
    | .flag name value => ∃ flag text left behind,
        known.find? (·.name == name) = some flag ∧ taken? flag value rest = some (text, left) ∧
          occurrences = (flag, text) :: behind ∧ Reads known left behind last := by
  cases h with
  | plain hplain => simp [classify_plain hplain]
  | finish => simp [classify]
  | @switch hyphens flag _ _ behind hh hflag hs h =>
    have hclass := classify_flag hh (isFlagName_name flag) none
    rw [suffix, String.append_empty] at hclass
    rw [hclass]
    exact ⟨flag, "true", rest, behind, find?_name hflag, by simp [taken?, hs], rfl, h⟩
  | @joined hyphens value flag _ _ behind hh hflag h =>
    have hclass := classify_flag hh (isFlagName_name flag) (some value)
    rw [suffix, ← String.append_assoc] at hclass
    rw [hclass]
    exact ⟨flag, value, rest, behind, find?_name hflag, by simp [taken?], rfl, h⟩
  | @apart hyphens value flag left _ behind hh hflag hs h =>
    have hclass := classify_flag hh (isFlagName_name flag) none
    rw [suffix, String.append_empty] at hclass
    rw [hclass]
    exact ⟨flag, value, left, behind, find?_name hflag, by simp [taken?, hs], rfl, h⟩

/-- Arguments are read in one way. -/
theorem Reads.unique {occurrences' : List (Flag × String)} {last' : List String}
    (h : Reads known arguments occurrences last) (h' : Reads known arguments occurrences' last') :
    occurrences = occurrences' ∧ last = last' := by
  induction hn : arguments.length using Nat.strong_induction_on generalizing arguments occurrences
    occurrences' with
  | _ n ih =>
    cases arguments with
    | nil =>
      cases h
      cases h'
      exact ⟨rfl, rfl⟩
    | cons argument rest =>
      have hfirst := h.of_cons
      have hfirst' := h'.of_cons
      cases hclass : classify argument with
      | plain => simp_all
      | finish => simp_all
      | malformed => simp_all
      | flag name value =>
        rw [hclass] at hfirst hfirst'
        obtain ⟨flag, text, left, behind, hfind, htaken, rfl, hleft⟩ := hfirst
        obtain ⟨flag', text', left', behind', hfind', htaken', rfl, hleft'⟩ := hfirst'
        obtain rfl : flag = flag' := Option.some.inj (hfind.symm.trans hfind')
        obtain ⟨rfl, rfl⟩ : text = text' ∧ left = left' := by
          simpa using htaken.symm.trans htaken'
        have hshort : left.length < n := by
          have := length_le_of_taken htaken
          simp at hn
          omega
        obtain ⟨rfl, rfl⟩ := ih _ hshort hleft hleft' rfl
        exact ⟨rfl, rfl⟩

end

/-! ## Parsing -/

/-- The flags with the values that occur, one after another. -/
def gather (f : Flags) (occurrences : List (Flag × String)) : Except String Flags :=
  occurrences.foldlM (fun f occurrence => f.assign occurrence.1 occurrence.2) f

/-- Gathering goes on with what the first assignment gave. -/
theorem gather_cons {f f' : Flags} {flag : Flag} {value : String}
    (h : f.assign flag value = .ok f') (occurrences : List (Flag × String)) :
    f.gather ((flag, value) :: occurrences) = f'.gather occurrences := by
  simp only [gather, List.foldlM_cons, h]
  rfl

/-- What one more value changes. -/
theorem assign_cases {f f' : Flags} {flag : Flag} {value : String}
    (h : f.assign flag value = .ok f') :
    (∃ k settings, flag = .setting k ∧ assignSetting f.settings k value = .ok settings ∧
        f' = { f with settings, given := enter flag.name flag f.given }) ∨
      (∀ k, flag ≠ .setting k) ∧ ∃ config version,
        f' = { f with config, version, given := enter flag.name flag f.given } := by
  revert h
  fun_cases assign f flag value with
  | case1 k =>
    intro h
    cases hset : assignSetting f.settings k value with
    | error cause => simp [hset, Except.map] at h
    | ok settings =>
      rw [hset] at h
      cases h
      exact .inl ⟨k, settings, rfl, hset, rfl⟩
  | case2 =>
    rintro ⟨⟩
    exact .inr ⟨by simp, value, f.version, rfl⟩
  | case3 version =>
    rintro ⟨⟩
    exact .inr ⟨by simp, f.config, version, rfl⟩
  | case4 => simp

/-- Parsing reads the arguments and assigns what occurs in them. -/
theorem parseFrom_reads {known : List Flag} {f g : Flags} {arguments : List String}
    (hrest : f.rest = []) (h : parseFrom known f arguments = .ok g) :
    ∃ occurrences, Reads known arguments occurrences g.rest ∧
      f.gather occurrences = .ok { g with rest := f.rest } := by
  -- a flag that was assigned, in front of what is parsed behind it
  have hstep : ∀ {f f' : Flags} {argument name text : String} {flag : Flag} {value : Option String}
      {rest left : List String}, f.rest = [] → classify argument = .flag name value →
      known.find? (·.name == name) = some flag → taken? flag value rest = some (text, left) →
      f.assign flag text = .ok f' →
      (f'.rest = [] → ∃ occurrences, Reads known left occurrences g.rest ∧
        f'.gather occurrences = .ok { g with rest := f'.rest }) →
      ∃ occurrences, Reads known (argument :: rest) occurrences g.rest ∧
        f.gather occurrences = .ok { g with rest := f.rest } := by
    intro f f' argument name text flag value rest left hrest hclass hfind htaken hassign ih
    have hkept : f'.rest = f.rest := by
      obtain ⟨k, settings, -, -, rfl⟩ | ⟨-, config, version, rfl⟩ := assign_cases hassign <;> rfl
    obtain ⟨occurrences, hreads, hgather⟩ := ih (hkept.trans hrest)
    have hspelled := spelled_classify argument
    rw [hclass] at hspelled
    obtain ⟨hyphens, hh, rfl⟩ := hspelled
    obtain rfl : flag.name = name := by simpa using List.find?_some hfind
    have hknown := List.mem_of_find?_eq_some hfind
    refine ⟨(flag, text) :: occurrences, reads_flag hh hknown htaken hreads, ?_⟩
    rw [gather_cons hassign, hgather, hkept]
  fun_induction parseFrom known f arguments with
  | case1 f =>
    obtain rfl : f = g := by simpa using h
    refine ⟨[], ?_, rfl⟩
    rw [hrest]
    exact .nil
  | case2 f argument rest hclass =>
    cases h
    have hspelled := spelled_classify argument
    rw [hclass] at hspelled
    exact ⟨[], .plain hspelled, rfl⟩
  | case3 f argument rest hclass =>
    cases h
    have hspelled := spelled_classify argument
    rw [hclass] at hspelled
    obtain rfl : argument = "--" := hspelled
    exact ⟨[], .finish, rfl⟩
  | case7 f argument rest name value hclass flag hfind hs text f' hassign ih =>
    refine hstep hrest hclass hfind ?_ hassign (ih · h)
    cases value with
    | none => simp [taken?, hs, text]
    | some value => simp [taken?, text]
  | case10 f argument name flag hfind hs value rest f' hassign hclass ih =>
    exact hstep hrest hclass hfind (by simp [taken?, hs]) hassign (ih · h)
  | case12 f argument name flag hfind hs value rest f' hassign hclass ih =>
    exact hstep hrest hclass hfind (by simp [taken?]) hassign (ih · h)
  | case4 | case5 | case6 | case8 | case9 | case11 => cases h

end Flags

/-! ## Settings one by one -/

/-- The value of a setting, of whatever kind. -/
inductive Settings.Value where
  | text (text : String)
  | texts (texts : List String)
  | duration (duration : Duration)
  | number (number : Int)
  | truth (truth : Bool)
  deriving DecidableEq

/-- The value that the settings have for `k`. -/
def Settings.value (s : Settings) : Key → Settings.Value
  | .proto => .text s.proto
  | .out => .text s.out
  | .namespaceName => .text s.namespaceName
  | .profile => .text s.profile
  | .roots => .texts s.roots
  | .parser => .text s.parser
  | .compiler => .text s.compiler
  | .timeout => .duration s.timeout
  | .jobs => .number s.jobs
  | .jsonSchema => .truth s.jsonSchema
  | .excludes => .texts s.excludes
  | .logLevel => .text s.logLevel
  | .logFormat => .text s.logFormat

/-- What a setting means for which `given` was given: a list has all of it, anything else is the
last. -/
def Key.meaning? (k : Key) (given : List String) : Option Settings.Value :=
  match k with
  | .roots | .excludes => some (.texts given)
  | .profile => given.getLast?.bind fun text => (Profile.ofName? text).map (.text ·.name)
  | .timeout => given.getLast?.bind fun text => (Duration.parse text).toOption.map .duration
  | .jobs => given.getLast?.bind fun text => (readAnyInt text).toOption.map .number
  | .jsonSchema => given.getLast?.bind fun text => (truth? text).map .truth
  | _ => given.getLast?.map .text

/-- The setting `k` of `s` is what `given` means, or when nothing was given that of `base`. -/
def Settings.Overrides (s base : Settings) (k : Key) (given : List String) : Prop :=
  if given = [] then s.value k = base.value k else k.meaning? given = some (s.value k)

/-- A name stands for the setting that it is the name of. -/
theorem Settings.value_copy (source into : Settings) (name : String) (k : Key) :
    (source.copy name into).value k = if name = k.name then source.value k else into.value k := by
  by_cases hname : name = k.name
  · rw [if_pos hname, hname]
    cases k <;> rfl
  · rw [if_neg hname]
    fun_cases Settings.copy source name into with
    | case14 => rfl
    | _ => cases k with
      | _ => first | rfl | exact absurd rfl hname

namespace Flags

/-- The values that occur for the setting `k`, in order. -/
def valuesOf (k : Key) (occurrences : List (Flag × String)) : List String :=
  occurrences.filterMap fun occurrence =>
    if occurrence.1 = .setting k then some occurrence.2 else none

/-- An assignment keeps all other settings. -/
theorem value_assignSetting {s s' : Settings} {k j : Key} {value : String}
    (h : assignSetting s k value = .ok s') (hj : j ≠ k) : s'.value j = s.value j := by
  revert h
  fun_cases assignSetting s k value with
  | case4 =>
    intro h
    cases hname : Profile.readName value with
    | error cause => simp [hname, Except.map] at h
    | ok profile =>
      simp only [hname, Except.map] at h
      cases h
      cases j <;> first | rfl | exact absurd rfl hj
  | case9 | case11 | case12 | case14 => simp
  | _ =>
    rintro ⟨⟩
    cases j <;> first | rfl | exact absurd rfl hj

/-- An assignment gives its setting the value. -/
theorem overrides_assignSetting {s s' : Settings} {k : Key} {value : String} {given : List String}
    {processors : Int} (h : assignSetting s k value = .ok s')
    (hs : s.Overrides (.default processors) k given) :
    s'.Overrides (.default processors) k (given ++ [value]) := by
  rw [Settings.Overrides, if_neg (by simp)]
  revert h
  fun_cases assignSetting s k value with
  | case4 =>
    intro h
    cases hname : Profile.ofName? value with
    | none => simp [Profile.readName, hname, Except.map] at h
    | some profile =>
      simp only [Profile.readName, hname, Except.map] at h
      cases h
      simp [Key.meaning?, hname, Settings.value]
  | case5 =>
    rintro ⟨⟩
    have hroots : s.roots = given := by
      grind [Settings.Overrides, Settings.value, Key.meaning?, Settings.default]
    simp [Key.meaning?, Settings.value, hroots]
  | case15 =>
    rintro ⟨⟩
    have hexcludes : s.excludes = given := by
      grind [Settings.Overrides, Settings.value, Key.meaning?, Settings.default]
    simp [Key.meaning?, Settings.value, hexcludes]
  | case8 timeout hparse =>
    rintro ⟨⟩
    simp [Key.meaning?, Settings.value, hparse, Except.toOption]
  | case10 jobs hread =>
    rintro ⟨⟩
    simp [Key.meaning?, Settings.value, hread, Except.toOption]
  | case13 jsonSchema htruth =>
    rintro ⟨⟩
    simp [Key.meaning?, Settings.value, htruth]
  | case9 | case11 | case12 | case14 => simp
  | case1 | case2 | case3 | case6 | case7 | case16 | case17 =>
    rintro ⟨⟩
    simp [Key.meaning?, Settings.value]

/-- `f` is what comes of assigning `occurrences` to the defaults. -/
structure Gathers (processors : Int) (f : Flags) (occurrences : List (Flag × String)) : Prop where
  settings : ∀ k, f.settings.Overrides (.default processors) k (valuesOf k occurrences)
  given : ∀ k : Key, k.name ∈ f.given.map (·.1) ↔ valuesOf k occurrences ≠ []

theorem valuesOf_concat (k : Key) (occurrences : List (Flag × String)) (flag : Flag)
    (value : String) :
    valuesOf k (occurrences ++ [(flag, value)]) =
      valuesOf k occurrences ++ if flag = .setting k then [value] else [] := by
  by_cases hk : flag = .setting k
  · simp [valuesOf, hk]
  · simp [valuesOf, hk]

/-- The step: one assignment gathers one more value. -/
theorem gathers_assign {processors : Int} {f f' : Flags} {flag : Flag} {value : String}
    {occurrences : List (Flag × String)} (hf : Gathers processors f occurrences)
    (h : f.assign flag value = .ok f') :
    Gathers processors f' (occurrences ++ [(flag, value)]) := by
  -- the name of a setting is entered exactly when its flag is assigned
  have hgiven : ∀ k : Key, k.name ∈ (enter flag.name flag f.given).map (·.1) ↔
      valuesOf k (occurrences ++ [(flag, value)]) ≠ [] := by
    intro k
    rw [mem_keys_enter, valuesOf_concat]
    by_cases hk : flag = .setting k
    · simp [hk, Flag.name]
    · have hname : k.name ≠ flag.name := fun he => hk (name_inj he.symm)
      simpa [hk, hname] using hf.given k
  obtain ⟨k, settings, rfl, hset, rfl⟩ | ⟨hflag, config, version, rfl⟩ := assign_cases h
  · refine ⟨fun j => ?_, hgiven⟩
    rw [valuesOf_concat]
    by_cases hj : j = k
    · subst hj
      rw [if_pos rfl]
      exact overrides_assignSetting hset (hf.settings j)
    · have hkept := value_assignSetting hset hj
      simpa [Settings.Overrides, hkept, Ne.symm hj] using hf.settings j
  · exact ⟨fun j => by simpa [valuesOf_concat, hflag j] using hf.settings j, hgiven⟩

/-- The run: after all assignments every setting holds what was given for it. -/
theorem gathers_gather {processors : Int} {f f' : Flags}
    {before occurrences : List (Flag × String)} (hf : Gathers processors f before)
    (h : f.gather occurrences = .ok f') : Gathers processors f' (before ++ occurrences) := by
  induction occurrences generalizing f before with
  | nil =>
    cases h
    simpa using hf
  | cons occurrence occurrences ih =>
    obtain ⟨flag, value⟩ := occurrence
    cases hassign : f.assign flag value with
    | error cause =>
      simp only [gather, List.foldlM_cons, hassign] at h
      cases h
    | ok f₁ =>
      rw [gather_cons hassign] at h
      simpa using ih (gathers_assign hf hassign) h

theorem gathers_nil (processors : Int) :
    Gathers processors { settings := .default processors } [] :=
  ⟨fun _ => rfl, by simp [valuesOf]⟩

/-- Only what was given is taken over the settings below. -/
theorem value_applyTo (f : Flags) (s : Settings) (k : Key) :
    (f.applyTo s).value k =
      if k.name ∈ f.given.map (·.1) then f.settings.value k else s.value k := by
  rw [applyTo]
  induction f.given generalizing s with
  | nil => simp
  | cons x given ih =>
    rw [List.foldl_cons, ih, Settings.value_copy]
    by_cases hk : x.1 = k.name
    · simp [hk]
    · have hmem : k.name ∈ (x :: given).map (·.1) ↔ k.name ∈ given.map (·.1) := by
        rw [List.map_cons, List.mem_cons, or_iff_right (Ne.symm hk)]
      simp only [hmem, if_neg hk]

/-- Flags override the settings below them one by one. Arguments that parse have one reading. Each
setting is then what was given for it, and where nothing was given it is what it was below, whatever
its default is. -/
theorem overrides_applyTo_of_parse {processors : Int} {known : List Flag} {arguments : List String}
    {f : Flags} (h : parse processors known arguments = .ok f) (s : Settings) :
    ∃ occurrences,
      (∀ found rest, Reads known arguments found rest ↔ found = occurrences ∧ rest = f.rest) ∧
        ∀ k, (f.applyTo s).Overrides s k (valuesOf k occurrences) := by
  obtain ⟨occurrences, hreads, hgather⟩ := parseFrom_reads rfl h
  refine ⟨occurrences, fun found rest => ⟨fun hfound => hfound.unique hreads, ?_⟩, fun k => ?_⟩
  · rintro ⟨rfl, rfl⟩
    exact hreads
  · have hf := gathers_gather (gathers_nil processors) hgather
    have hgiven := hf.given k
    have hsettings := hf.settings k
    rw [Settings.Overrides, value_applyTo]
    by_cases hnone : valuesOf k occurrences = []
    · have hk : k.name ∉ f.given.map (·.1) := by simpa [hnone] using hgiven
      rw [if_pos hnone, if_neg hk]
    · have hk : k.name ∈ f.given.map (·.1) := by simpa [hnone] using hgiven
      rw [if_neg hnone, if_pos hk]
      simpa [Settings.Overrides, hnone] using hsettings

/-- Two values for `out`, of which the second counts, two import roots in place of one, a switch in
its short form, and no value for `protoc`, which stays; what stands behind the hyphens is no
flag. -/
theorem overrides_applyTo_repeated :
    let flags : Flags :=
      { settings := { out := "b", roots := ["x", "y"], jobs := 4, jsonSchema := true },
        given := [.jsonSchema, .out, .roots].map fun k => (k.name, .setting k), rest := ["-proto"] }
    let below : Settings :=
      { out := "low", roots := ["r"], compiler := "buf", jobs := 1, jsonSchema := false }
    let arguments :=
      ["-out", "a", "--proto_path=x", "-json_schema", "--out=b", "-proto_path", "y", "--", "-proto"]
    parse 4 Flag.settings arguments = .ok flags ∧
      (∃ occurrences,
        (∀ found rest, Reads Flag.settings arguments found rest ↔
          found = occurrences ∧ rest = ["-proto"]) ∧
          ∀ k, (flags.applyTo below).Overrides below k (valuesOf k occurrences)) ∧
      flags.applyTo below = { out := "b", roots := ["x", "y"], compiler := "buf", jobs := 1 } := by
  intro flags below arguments
  have hparse : parse 4 Flag.settings arguments = .ok flags := by decide +kernel
  exact ⟨hparse, overrides_applyTo_of_parse hparse below, by decide⟩

end Flags

end ProtoStub
