import ProtoStub.Program.Build
import Mathlib.Data.List.Nodup
import Mathlib.Data.List.Perm.Basic

/-!
# The declaration pass as a run of steps

The first pass walks the messages of each file in depth, numbers them as it meets them and enters
every full name into the symbol table. `stepsOf` is the flat list of what it declares, in
order, and `declareAll_eq_foldlM` says that the pass is the run of these steps: the walk over the
nested messages only decides which steps there are. A step lists what it declares at once, the pass
only when everything in it is declared. That makes no difference, since what stands in a message is
listed in that message or in one that comes after it (`run_modifyAt`). So what holds of the
declarations of a set is proved for one step and then for a run. A step succeeds exactly when its
name is new (`Step.run_eq_ok_iff`), and a run exactly when no name is declared twice
(`run_isOk_iff`). The invariant of the run is `Declarations.Indexed`: the table leads from each full
name to the one message or enum that has it.
-/

namespace ProtoStub.Program

open Schema (FileSet)

/-! ## Symbol tables -/

/-- A new entry is found by its name, and hides no other. -/
theorem SymbolTable.find_insert {t : SymbolTable} {e : Entry} (h : t.find e.fullName = none)
    (name : String) :
    SymbolTable.find (t.insert e) name = if e.fullName = name then some e else t.find name := by
  induction t with
  | nil =>
    by_cases hn : e.fullName = name <;> simp [SymbolTable.insert, SymbolTable.find, hn]
  | cons f rest ih =>
    simp only [SymbolTable.find, List.find?_cons] at h
    split at h
    · cases h
    · rename_i hf
      rw [beq_eq_false_iff_ne] at hf
      have hr := ih h
      rw [SymbolTable.insert]
      simp only [SymbolTable.find] at hr ⊢
      split
      · by_cases hn : e.fullName = name <;> simp [List.find?_cons, hn]
      · rw [List.find?_cons, List.find?_cons, hr]
        by_cases hn : e.fullName = name
        · subst hn; rw [beq_false_of_ne hf]
        · simp [hn]

/-- The entry found for a name has that name. -/
theorem SymbolTable.fullName_of_find {t : SymbolTable} {name : String} {e : Entry}
    (h : t.find name = some e) : e.fullName = name := by
  have := List.find?_some h
  simpa using this

/-! ## Steps -/

/-- One declaration of the first pass. -/
inductive Step where
  | message (m : DeclaredMessage)
  | enum (e : DeclaredEnum)
  deriving Repr, Inhabited

namespace Step

/-- The full name that a step declares. -/
def fullName : Step → String
  | .message m => m.fullName
  | .enum e => e.fullName

/-- The message that a step declares. -/
def message? : Step → Option DeclaredMessage
  | .message m => some m
  | .enum _ => none

/-- The enum that a step declares. -/
def enum? : Step → Option DeclaredEnum
  | .message _ => none
  | .enum e => some e

/-- Where what a step declares stands. -/
def place : Step → Place
  | .message m => .of m.file m.parent
  | .enum e => .of e.file e.parent

/-- The declarations after a step. -/
def run (s : FileSet) (d : Declarations) : Step → Except Error Declarations
  | .message m =>
    match d.enter s ⟨m.fullName, .message d.messages.length, m.file⟩ m.raw.line with
    | .error err => .error err
    | .ok symbols => .ok ((d.appendMessage m symbols).modifyAt (.of m.file m.parent)
        (.addMessage d.messages.length))
  | .enum e =>
    match d.enter s ⟨e.fullName, .enum d.enums.length, e.file⟩ e.raw.line with
    | .error err => .error err
    | .ok symbols => .ok ((d.appendEnum e symbols).modifyAt (.of e.file e.parent)
        (.addEnum d.enums.length))

end Step

/-- The messages among the steps, in order. -/
def messagesOf (steps : List Step) : List DeclaredMessage := steps.filterMap Step.message?

/-- The enums among the steps, in order. -/
def enumsOf (steps : List Step) : List DeclaredEnum := steps.filterMap Step.enum?

@[simp] theorem messagesOf_nil : messagesOf [] = [] := rfl
@[simp] theorem messagesOf_message (m : DeclaredMessage) (steps : List Step) :
    messagesOf (.message m :: steps) = m :: messagesOf steps := rfl
@[simp] theorem messagesOf_enum (e : DeclaredEnum) (steps : List Step) :
    messagesOf (.enum e :: steps) = messagesOf steps := rfl
@[simp] theorem messagesOf_append (a b : List Step) :
    messagesOf (a ++ b) = messagesOf a ++ messagesOf b := List.filterMap_append
@[simp] theorem enumsOf_nil : enumsOf [] = [] := rfl
@[simp] theorem enumsOf_message (m : DeclaredMessage) (steps : List Step) :
    enumsOf (.message m :: steps) = enumsOf steps := rfl
@[simp] theorem enumsOf_enum (e : DeclaredEnum) (steps : List Step) :
    enumsOf (.enum e :: steps) = e :: enumsOf steps := rfl
@[simp] theorem enumsOf_append (a b : List Step) :
    enumsOf (a ++ b) = enumsOf a ++ enumsOf b := List.filterMap_append

/-- The enums of one place as declared entries. -/
def enumEntries (file : Nat) (parent : Option Nat) (scope : String) (es : List Schema.Enum) :
    List DeclaredEnum :=
  es.map fun e => ⟨joinScope scope e.name, file, parent, e⟩

mutual

/-- The steps that declare a message and everything nested in it, when `base` messages are declared
already. -/
def messageSteps (file : Nat) (parent : Option Nat) (scope : String) (base : Nat) :
    Schema.Message → List Step
  | ⟨name, line, fields, messages, enums⟩ =>
    .message ⟨joinScope scope name, file, parent, ⟨name, line, fields, messages, enums⟩⟩ ::
      (messagesSteps file (some base) (joinScope scope name) (base + 1) messages ++
        (enumEntries file (some base) (joinScope scope name) enums).map .enum)

/-- The steps that declare messages in order. -/
def messagesSteps (file : Nat) (parent : Option Nat) (scope : String) (base : Nat) :
    List Schema.Message → List Step
  | [] => []
  | m :: rest =>
    messageSteps file parent scope base m ++
      messagesSteps file parent scope
        (base + (messagesOf (messageSteps file parent scope base m)).length) rest

end

/-- The steps that declare everything in a file. -/
def fileSteps (base : Nat) (file : Nat × Schema.File) : List Step :=
  messagesSteps file.1 none file.2.package base file.2.messages ++
    (enumEntries file.1 none file.2.package file.2.enums).map .enum

/-- The steps that declare everything in numbered files. -/
def filesSteps (base : Nat) : List (Nat × Schema.File) → List Step
  | [] => []
  | file :: rest =>
    fileSteps base file ++ filesSteps (base + (messagesOf (fileSteps base file)).length) rest

/-- The steps that declare everything in a set of files. -/
def stepsOf (s : FileSet) : List Step := filesSteps 0 (numberedFiles s)

/-! ## What a step adds -/

/-- The declarations with one more, whose name is new. -/
def Declarations.add (d : Declarations) : Step → Declarations
  | .message m =>
    (d.appendMessage m (d.symbols.insert ⟨m.fullName, .message d.messages.length, m.file⟩)).modifyAt
      (.of m.file m.parent) (.addMessage d.messages.length)
  | .enum e =>
    (d.appendEnum e (d.symbols.insert ⟨e.fullName, .enum d.enums.length, e.file⟩)).modifyAt
      (.of e.file e.parent) (.addEnum d.enums.length)

/-- The place is that of a file, or in a message that is declared. -/
def Declarations.Fits (d : Declarations) : Place → Prop
  | .top file => file < d.tops.length
  | .inside message => message < d.nested.length

section
variable {d : Declarations} {place : Place} {change : Members → Members}

@[simp] theorem Declarations.modifyAt_messages :
    (d.modifyAt place change).messages = d.messages := by cases place <;> rfl
@[simp] theorem Declarations.modifyAt_enums :
    (d.modifyAt place change).enums = d.enums := by cases place <;> rfl
@[simp] theorem Declarations.modifyAt_symbols :
    (d.modifyAt place change).symbols = d.symbols := by cases place <;> rfl
@[simp] theorem Declarations.length_nested_modifyAt :
    (d.modifyAt place change).nested.length = d.nested.length := by
  cases place <;> simp [modifyAt]
@[simp] theorem Declarations.length_tops_modifyAt :
    (d.modifyAt place change).tops.length = d.tops.length := by
  cases place <;> simp [modifyAt]

@[simp] theorem Declarations.add_message_messages (m : DeclaredMessage) :
    (d.add (.message m)).messages = d.messages ++ [m] := modifyAt_messages
@[simp] theorem Declarations.add_enum_messages (e : DeclaredEnum) :
    (d.add (.enum e)).messages = d.messages := modifyAt_messages
@[simp] theorem Declarations.add_message_enums (m : DeclaredMessage) :
    (d.add (.message m)).enums = d.enums := modifyAt_enums
@[simp] theorem Declarations.add_enum_enums (e : DeclaredEnum) :
    (d.add (.enum e)).enums = d.enums ++ [e] := modifyAt_enums
@[simp] theorem Declarations.add_message_symbols (m : DeclaredMessage) :
    (d.add (.message m)).symbols =
      d.symbols.insert ⟨m.fullName, .message d.messages.length, m.file⟩ := modifyAt_symbols
@[simp] theorem Declarations.add_enum_symbols (e : DeclaredEnum) :
    (d.add (.enum e)).symbols =
      d.symbols.insert ⟨e.fullName, .enum d.enums.length, e.file⟩ := modifyAt_symbols

/-- Changes in two places do not depend on their order. -/
theorem Declarations.modifyAt_comm {place' : Place} {change' : Members → Members}
    (h : place ≠ place') : (d.modifyAt place change).modifyAt place' change' =
      (d.modifyAt place' change').modifyAt place change := by
  cases place with
  | top k =>
    cases place' with
    | top k' =>
      simp only [modifyAt, List.modify_modify_ne _ _ _ fun he => h (congrArg Place.top he)]
    | inside k' => rfl
  | inside k =>
    cases place' with
    | top k' => rfl
    | inside k' =>
      simp only [modifyAt, List.modify_modify_ne _ _ _ fun he => h (congrArg Place.inside he)]

/-- An item of the first part is changed there. -/
theorem modify_append_left {α : Type} {xs : List α} {i : Nat} (h : i < xs.length) (ys : List α)
    (f : α → α) : (xs ++ ys).modify i f = xs.modify i f ++ ys := by
  refine List.ext_getElem? fun j => ?_
  simp only [List.getElem?_modify, List.getElem?_append, List.length_modify]
  by_cases hj : j < xs.length
  · simp [hj]
  · have hne : i ≠ j := by omega
    simp [hj, hne]

/-- Listing a member does not change which names are taken. -/
theorem Declarations.enter_modifyAt (s : FileSet) (e : Entry) (line : Int) :
    (d.modifyAt place change).enter s e line = d.enter s e line := by
  rw [enter, enter, modifyAt_symbols]

theorem Declarations.appendEnum_modifyAt (e : DeclaredEnum) (symbols : SymbolTable) :
    (d.modifyAt place change).appendEnum e symbols =
      (d.appendEnum e symbols).modifyAt place change := by
  cases place <;> rfl

/-- A change in a place that is there can be made before or after one more message. -/
theorem Declarations.appendMessage_modifyAt (h : d.Fits place) (m : DeclaredMessage)
    (symbols : SymbolTable) : (d.modifyAt place change).appendMessage m symbols =
      (d.appendMessage m symbols).modifyAt place change := by
  cases place with
  | top k => rfl
  | inside k => simp only [appendMessage, modifyAt, modify_append_left h]

end

/-! ## The pass runs the steps -/

section
variable {s : FileSet} {file : Nat} {parent : Option Nat} {scope : String} {d d' : Declarations}

/-- A step succeeds exactly when its name is not in the table yet. -/
theorem Step.run_eq_ok_iff {st : Step} :
    st.run s d = .ok d' ↔ d.symbols.find st.fullName = none ∧ d' = d.add st := by
  cases st with
  | message m | enum m =>
    simp only [Step.run, Declarations.enter, Step.fullName, Declarations.add]
    cases d.symbols.find m.fullName with
    | none => simp [eq_comm]
    | some e => simp

/-- What every step keeps, a run keeps. -/
theorem keeps_of_run {P : Declarations → Prop}
    (hstep : ∀ {d d' : Declarations} {st : Step}, P d → st.run s d = .ok d' → P d')
    {steps : List Step} (h : P d) (hr : steps.foldlM (Step.run s) d = .ok d') : P d' := by
  induction steps generalizing d with
  | nil =>
    cases hr
    exact h
  | cons st rest ih =>
    rw [List.foldlM_cons] at hr
    cases hd : st.run s d with
    | error e => rw [hd] at hr; cases hr
    | ok d₁ =>
      rw [hd] at hr
      exact ih (hstep h hd) hr

/-- A run appends what its steps declare. -/
theorem lists_of_run {steps : List Step} (h : steps.foldlM (Step.run s) d = .ok d') :
    d'.messages = d.messages ++ messagesOf steps ∧ d'.enums = d.enums ++ enumsOf steps := by
  induction steps generalizing d with
  | nil => cases h; simp
  | cons st rest ih =>
    rw [List.foldlM_cons] at h
    cases hd : Step.run s d st with
    | error e => rw [hd] at h; cases h
    | ok d₁ =>
      rw [hd] at h
      obtain ⟨hm, he⟩ := ih h
      rw [hm, he, (Step.run_eq_ok_iff.1 hd).2]
      cases st <;> simp

/-- Enums are declared one step each. -/
theorem declareEnums_eq_foldlM (es : List Schema.Enum) :
    declareEnums s file parent scope d es =
      ((enumEntries file parent scope es).map .enum).foldlM (Step.run s) d := by
  induction es generalizing d with
  | nil => rfl
  | cons e rest ih =>
    rw [declareEnums, declareEnum, enumEntries, List.map_cons, List.map_cons, List.foldlM_cons,
      Step.run]
    dsimp only
    cases d.enter s ⟨joinScope scope e.name, .enum d.enums.length, file⟩ e.line with
    | error err => rfl
    | ok symbols => exact ih

/-- The steps of two parts run one after the other. -/
theorem foldlM_run_append {a b : List Step} :
    (a ++ b).foldlM (Step.run s) d =
      match a.foldlM (Step.run s) d with
      | .error e => .error e
      | .ok d₁ => b.foldlM (Step.run s) d₁ := by
  rw [List.foldlM_append]
  cases a.foldlM (Step.run s) d <;> rfl

/-- The places that are there stay when a message or enum is added. -/
theorem Declarations.Fits.run {st : Step} {place : Place} (h : d.Fits place)
    (hr : st.run s d = .ok d') : d'.Fits place := by
  obtain ⟨-, rfl⟩ := Step.run_eq_ok_iff.1 hr
  cases st with
  | message m | enum m =>
    cases place with
    | top k | inside k =>
      simp only [Fits, add, appendMessage, appendEnum, length_tops_modifyAt,
        length_nested_modifyAt, List.length_append] at h ⊢
      omega

/-- A change elsewhere can be made before or after a step. -/
theorem Step.run_modifyAt {st : Step} {place : Place} {change : Members → Members}
    (hfits : d.Fits place) (hne : st.place ≠ place) :
    st.run s (d.modifyAt place change) = (st.run s d).map (·.modifyAt place change) := by
  cases st with
  | message m =>
    have hne' : Place.of m.file m.parent ≠ place := hne
    rw [Step.run, Step.run, Declarations.enter_modifyAt, Declarations.modifyAt_messages]
    cases d.enter s ⟨m.fullName, .message d.messages.length, m.file⟩ m.raw.line with
    | error err => rfl
    | ok symbols =>
      dsimp only [Except.map]
      rw [Declarations.appendMessage_modifyAt hfits, Declarations.modifyAt_comm hne'.symm]
  | enum e =>
    have hne' : Place.of e.file e.parent ≠ place := hne
    rw [Step.run, Step.run, Declarations.enter_modifyAt, Declarations.modifyAt_enums]
    cases d.enter s ⟨e.fullName, .enum d.enums.length, e.file⟩ e.raw.line with
    | error err => rfl
    | ok symbols =>
      dsimp only [Except.map]
      rw [Declarations.appendEnum_modifyAt, Declarations.modifyAt_comm hne'.symm]

/-- A change elsewhere can be made before or after a run. -/
theorem run_modifyAt {steps : List Step} {place : Place} {change : Members → Members}
    (hfits : d.Fits place) (hne : ∀ st ∈ steps, st.place ≠ place) :
    steps.foldlM (Step.run s) (d.modifyAt place change) =
      (steps.foldlM (Step.run s) d).map (·.modifyAt place change) := by
  induction steps generalizing d with
  | nil => rfl
  | cons st rest ih =>
    rw [List.foldlM_cons, List.foldlM_cons, Step.run_modifyAt hfits (hne st List.mem_cons_self)]
    cases hr : st.run s d with
    | error e => rfl
    | ok d₁ => exact ih (hfits.run hr) fun st' hst' => hne st' (List.mem_cons_of_mem _ hst')

/-- All enums of a body are listed where the body is. -/
theorem place_of_mem_enumEntries {es : List Schema.Enum} {st : Step}
    (h : st ∈ (enumEntries file parent scope es).map Step.enum) :
    st.place = .of file parent := by
  obtain ⟨e, he, rfl⟩ := List.mem_map.1 h
  obtain ⟨raw, -, rfl⟩ := List.mem_map.1 he
  rfl

/-- A message is declared before what is nested in it. -/
theorem messageSteps_eq_cons (base : Nat) (m : Schema.Message) :
    messageSteps file parent scope base m =
      .message ⟨joinScope scope m.name, file, parent, m⟩ ::
        (messageSteps file parent scope base m).tail := by
  cases m
  rw [messageSteps, List.tail_cons]

mutual

/-- What is nested in a message stands in it or in a message that comes after it. -/
theorem place_of_mem_tail {file : Nat} {parent : Option Nat} {scope : String} {base : Nat}
    {st : Step} : ∀ m : Schema.Message, st ∈ (messageSteps file parent scope base m).tail →
      ∃ j, base ≤ j ∧ st.place = .inside j
  | ⟨name, line, fields, messages, enums⟩, h => by
    rw [messageSteps, List.tail_cons, List.mem_append] at h
    rcases h with h | h
    · rcases place_of_mem_messagesSteps messages h with hplace | ⟨j, hj, hplace⟩
      · exact ⟨base, Nat.le_refl _, hplace⟩
      · exact ⟨j, by omega, hplace⟩
    · exact ⟨base, Nat.le_refl _, place_of_mem_enumEntries h⟩

/-- What messages declare stands in their place, or in a message that comes with them. -/
theorem place_of_mem_messagesSteps {file : Nat} {parent : Option Nat} {scope : String} {base : Nat}
    {st : Step} : ∀ ms : List Schema.Message, st ∈ messagesSteps file parent scope base ms →
      st.place = .of file parent ∨ ∃ j, base ≤ j ∧ st.place = .inside j
  | [], h => by simp [messagesSteps] at h
  | m :: rest, h => by
    rw [messagesSteps, List.mem_append] at h
    rcases h with h | h
    · rw [messageSteps_eq_cons, List.mem_cons] at h
      rcases h with rfl | h
      · exact .inl rfl
      · exact .inr (place_of_mem_tail m h)
    · rcases place_of_mem_messagesSteps rest h with hplace | ⟨j, hj, hplace⟩
      · exact .inl hplace
      · exact .inr ⟨j, by omega, hplace⟩

end

/-- Every message has its own list. -/
def Declarations.Aligned (d : Declarations) : Prop := d.nested.length = d.messages.length

theorem Declarations.Aligned.appendMessage (h : d.Aligned) (m : DeclaredMessage)
    (symbols : SymbolTable) : (d.appendMessage m symbols).Aligned := by
  simpa [Aligned, Declarations.appendMessage] using h

theorem Declarations.Aligned.add (h : d.Aligned) (st : Step) : (d.add st).Aligned := by
  cases st <;> simpa [Aligned, Declarations.add, Declarations.appendMessage, appendEnum] using h

/-- Every message of a run has its lists of members. -/
theorem Declarations.Aligned.run {steps : List Step} (h : d.Aligned)
    (hr : steps.foldlM (Step.run s) d = .ok d') : d'.Aligned := by
  refine keeps_of_run (fun {d d' st} h hd => ?_) h hr
  obtain ⟨-, rfl⟩ := Step.run_eq_ok_iff.1 hd
  exact Aligned.add h st

theorem Declarations.Fits.appendMessage {place : Place} (h : d.Fits place) (m : DeclaredMessage)
    (symbols : SymbolTable) : (d.appendMessage m symbols).Fits place := by
  cases place with
  | top k => exact h
  | inside k => simpa [Fits, Declarations.appendMessage] using Nat.lt_succ_of_lt h

theorem Declarations.Fits.appendEnum {place : Place} (h : d.Fits place) (e : DeclaredEnum)
    (symbols : SymbolTable) : (d.appendEnum e symbols).Fits place := by
  cases place <;> exact h

/-- A message that is still to come is not the place. -/
theorem Declarations.Fits.ne_inside {place : Place} {j : Nat} (h : d.Fits place)
    (hj : d.nested.length ≤ j) : Place.inside j ≠ place := by
  rintro rfl
  exact absurd h (Nat.not_lt.2 hj)

/-- What stands in the next message is listed there or later, so not at the place. -/
theorem Declarations.Fits.place_ne {place : Place} (h : d.Fits place) (ha : d.Aligned) {file : Nat}
    {parent : Option Nat} {scope : String} {m : Schema.Message} {st : Step}
    (hst : st ∈ (messageSteps file parent scope d.messages.length m).tail) :
    st.place ≠ place := by
  obtain ⟨j, hj, hplace⟩ := place_of_mem_tail m hst
  rw [hplace]
  exact h.ne_inside (ha ▸ hj)

/-- A place stays one over a run. -/
theorem Declarations.Fits.runs {steps : List Step} {place : Place} (h : d.Fits place)
    (hr : steps.foldlM (Step.run s) d = .ok d') : d'.Fits place :=
  keeps_of_run (fun h hd => Fits.run h hd) h hr

mutual

/-- Declaring a message and then listing it runs its steps. -/
theorem declareMessage_eq_foldlM (file : Nat) (parent : Option Nat) (scope : String)
    (d : Declarations) (ha : d.Aligned) (hfits : d.Fits (.of file parent)) :
    ∀ m : Schema.Message,
      (declareMessage s file parent scope d m).map
          (fun r => r.2.modifyAt (.of file parent) (.addMessage r.1)) =
        (messageSteps file parent scope d.messages.length m).foldlM (Step.run s) d
  | ⟨name, line, fields, messages, enums⟩ => by
    rw [declareMessage, messageSteps, List.foldlM_cons, Step.run]
    cases d.enter s ⟨joinScope scope name, .message d.messages.length, file⟩ line with
    | error e => rfl
    | ok symbols =>
      let own : DeclaredMessage :=
        ⟨joinScope scope name, file, parent, ⟨name, line, fields, messages, enums⟩⟩
      have hin : (d.appendMessage own symbols).Fits (.inside d.messages.length) := by
        simp [Declarations.Fits, Declarations.appendMessage, show d.nested.length = _ from ha]
      have ih := declareMessages_eq_foldlM file (some d.messages.length) (joinScope scope name)
        (d.appendMessage own symbols) (ha.appendMessage own symbols) hin messages
      rw [show (d.appendMessage own symbols).messages.length = d.messages.length + 1 by
        simp [Declarations.appendMessage]] at ih
      have hne : ∀ st ∈ messagesSteps file (some d.messages.length) (joinScope scope name)
          (d.messages.length + 1) messages ++
            (enumEntries file (some d.messages.length) (joinScope scope name) enums).map .enum,
          st.place ≠ .of file parent := by
        intro st hst
        have htail : st ∈ (messageSteps file parent scope d.messages.length
            ⟨name, line, fields, messages, enums⟩).tail := by
          rw [messageSteps]
          exact hst
        exact hfits.place_ne ha htail
      show _ = List.foldlM (Step.run s) ((d.appendMessage own symbols).modifyAt (.of file parent)
        (.addMessage d.messages.length)) _
      rw [run_modifyAt (hfits.appendMessage own symbols) hne, foldlM_run_append, ← ih]
      dsimp only
      cases declareMessages s file (some d.messages.length) (joinScope scope name)
        (d.appendMessage own symbols) messages with
      | error e => rfl
      | ok d₁ =>
        dsimp only
        rw [← declareEnums_eq_foldlM]
        cases declareEnums s file (some d.messages.length) (joinScope scope name) d₁ enums <;> rfl

/-- Declaring messages runs their steps. -/
theorem declareMessages_eq_foldlM (file : Nat) (parent : Option Nat) (scope : String)
    (d : Declarations) (ha : d.Aligned) (hfits : d.Fits (.of file parent)) :
    ∀ ms : List Schema.Message, declareMessages s file parent scope d ms =
      (messagesSteps file parent scope d.messages.length ms).foldlM (Step.run s) d
  | [] => by rw [declareMessages, messagesSteps]; rfl
  | m :: rest => by
    have hm := declareMessage_eq_foldlM file parent scope d ha hfits m
    rw [declareMessages, messagesSteps, foldlM_run_append, ← hm]
    cases h : declareMessage s file parent scope d m with
    | error e => rfl
    | ok r =>
      obtain ⟨index, d₁⟩ := r
      rw [h] at hm
      have hlen : (d₁.modifyAt (.of file parent) (.addMessage index)).messages.length =
          d.messages.length +
            (messagesOf (messageSteps file parent scope d.messages.length m)).length := by
        rw [(lists_of_run hm.symm).1, List.length_append]
      rw [← hlen]
      exact declareMessages_eq_foldlM file parent scope _ (ha.run hm.symm) (hfits.runs hm.symm) rest

end

/-- Declaring a file runs its steps. -/
theorem declareFile_eq_foldlM (ha : d.Aligned) {file : Nat × Schema.File}
    (hfits : d.Fits (.top file.1)) :
    declareFile s d file = (fileSteps d.messages.length file).foldlM (Step.run s) d := by
  rw [declareFile, fileSteps, foldlM_run_append, declareMessages_eq_foldlM file.1 none _ d ha hfits]
  cases (messagesSteps file.1 none file.2.package d.messages.length file.2.messages).foldlM
    (Step.run s) d with
  | error e => rfl
  | ok d₁ => exact declareEnums_eq_foldlM file.2.enums

/-- Declaring files runs their steps. -/
theorem foldlM_declareFile (ha : d.Aligned) (files : List (Nat × Schema.File))
    (hfits : ∀ file ∈ files, d.Fits (.top file.1)) :
    files.foldlM (declareFile s) d =
      (filesSteps d.messages.length files).foldlM (Step.run s) d := by
  induction files generalizing d with
  | nil => rfl
  | cons file rest ih =>
    rw [List.foldlM_cons, filesSteps, foldlM_run_append,
      declareFile_eq_foldlM ha (hfits file List.mem_cons_self)]
    cases h : (fileSteps d.messages.length file).foldlM (Step.run s) d with
    | error e => rfl
    | ok d₁ =>
      have hlen : d₁.messages.length =
          d.messages.length + (messagesOf (fileSteps d.messages.length file)).length := by
        rw [(lists_of_run h).1, List.length_append]
      rw [← hlen]
      exact ih (ha.run h) fun file' hfile' => (hfits file' (List.mem_cons_of_mem _ hfile')).runs h

/-- The first pass is the run of the steps of the set. -/
theorem declareAll_eq_foldlM (s : FileSet) :
    declareAll s = (stepsOf s).foldlM (Step.run s) (.start s) := by
  have hstart : (Declarations.start s).Aligned := rfl
  refine foldlM_declareFile hstart (numberedFiles s) fun file hfile => ?_
  have hlt := (List.of_mem_zip hfile).1
  rw [List.mem_range] at hlt
  simpa [Declarations.Fits, Declarations.start] using hlt

end

/-! ## What a run leaves behind -/

/-- The full names declared so far. -/
def Declarations.names (d : Declarations) : List String :=
  d.messages.map (·.fullName) ++ d.enums.map (·.fullName)

/-- The entry describes a message or enum that stands at its number, with its name and its file. -/
def Declarations.Holds (d : Declarations) (e : Entry) : Prop :=
  match e.symbol with
  | .message i => ∃ m, d.messages[i]? = some m ∧ m.fullName = e.fullName ∧ m.file = e.file
  | .enum i => ∃ x, d.enums[i]? = some x ∧ x.fullName = e.fullName ∧ x.file = e.file

/-- The table leads from each full name to the one message or enum that has it. -/
def Declarations.Indexed (d : Declarations) : Prop :=
  ∀ e : Entry, d.symbols.find e.fullName = some e ↔ d.Holds e

section
variable {s : FileSet} {d d' : Declarations} {st : Step} {steps : List Step}

/-- A declaration that an entry describes has one of the declared names. -/
theorem Declarations.Holds.mem_names {e : Entry} (h : d.Holds e) : e.fullName ∈ d.names := by
  obtain ⟨name, symbol, file⟩ := e
  cases symbol with
  | message i =>
    obtain ⟨m, hm, hname, -⟩ := h
    exact List.mem_append_left _ (List.mem_map.2 ⟨m, List.mem_of_getElem? hm, hname⟩)
  | enum i =>
    obtain ⟨x, hx, hname, -⟩ := h
    exact List.mem_append_right _ (List.mem_map.2 ⟨x, List.mem_of_getElem? hx, hname⟩)

/-- Every declared name is described by an entry. -/
theorem Declarations.exists_holds {name : String} (h : name ∈ d.names) :
    ∃ e : Entry, e.fullName = name ∧ d.Holds e := by
  rcases List.mem_append.1 h with h | h
  · obtain ⟨m, hm, rfl⟩ := List.mem_map.1 h
    obtain ⟨i, hi⟩ := List.getElem?_of_mem hm
    exact ⟨⟨m.fullName, .message i, m.file⟩, rfl, m, hi, rfl, rfl⟩
  · obtain ⟨x, hx, rfl⟩ := List.mem_map.1 h
    obtain ⟨i, hi⟩ := List.getElem?_of_mem hx
    exact ⟨⟨x.fullName, .enum i, x.file⟩, rfl, x, hi, rfl, rfl⟩

/-- The table knows exactly the declared names. -/
theorem Declarations.Indexed.find_eq_none_iff (h : d.Indexed) {name : String} :
    d.symbols.find name = none ↔ name ∉ d.names := by
  constructor
  · intro hn hmem
    obtain ⟨e, rfl, he⟩ := Declarations.exists_holds hmem
    rw [(h e).2 he] at hn
    cases hn
  · intro hmem
    cases hf : d.symbols.find name with
    | none => rfl
    | some e =>
      have hname := SymbolTable.fullName_of_find hf
      subst hname
      exact absurd ((h e).1 hf).mem_names hmem

/-- The names after a step. -/
theorem Declarations.mem_names_add {name : String} :
    name ∈ (d.add st).names ↔ name ∈ d.names ∨ name = st.fullName := by
  cases st with
  | message m =>
    simp only [Declarations.names, Declarations.add_message_messages,
      Declarations.add_message_enums, Step.fullName, List.map_append, List.map_singleton,
      List.mem_append, List.mem_singleton]
    tauto
  | enum e =>
    simp only [Declarations.names, Declarations.add_enum_messages, Declarations.add_enum_enums,
      Step.fullName, List.map_append, List.map_singleton, List.mem_append, List.mem_singleton]
    tauto

/-- What holds after a step held before it, or is about what the step declares. -/
theorem Declarations.holds_add {e : Entry} :
    (d.add st).Holds e ↔ d.Holds e ∨ e = match st with
      | .message m => ⟨m.fullName, .message d.messages.length, m.file⟩
      | .enum x => ⟨x.fullName, .enum d.enums.length, x.file⟩ := by
  obtain ⟨name, symbol, file⟩ := e
  cases st with
  | message m | enum m =>
    cases symbol with
    | message i | enum i =>
      simp only [Declarations.Holds, Declarations.add_message_messages,
        Declarations.add_message_enums, Declarations.add_enum_messages,
        Declarations.add_enum_enums, List.getElem?_append, List.getElem?_singleton]
      grind

/-- A step keeps the table in order. -/
theorem Declarations.Indexed.add (h : d.Indexed) (hnew : st.fullName ∉ d.names) :
    (d.add st).Indexed := by
  intro e
  rw [Declarations.holds_add, ← h e]
  have hnone := h.find_eq_none_iff.2 hnew
  cases st with
  | message m | enum m =>
    simp only [Declarations.add_message_symbols, Declarations.add_enum_symbols]
    rw [SymbolTable.find_insert hnone]
    split
    · rename_i hname
      have hold : d.symbols.find e.fullName = none := hname ▸ hnone
      simp [hold, eq_comm]
    · rename_i hname
      refine ⟨Or.inl, fun he => he.resolve_right ?_⟩
      rintro rfl
      exact hname rfl

/-- Nothing is declared at the start. -/
theorem Declarations.indexed_start (s : FileSet) : (Declarations.start s).Indexed := by
  rintro ⟨name, symbol, file⟩
  cases symbol <;> simp [SymbolTable.find, Declarations.Holds, start]

/-- A run keeps the table in order. -/
theorem Declarations.Indexed.run (h : d.Indexed) (hr : steps.foldlM (Step.run s) d = .ok d') :
    d'.Indexed := by
  refine keeps_of_run (fun {d d' st} h hd => ?_) h hr
  obtain ⟨hnone, rfl⟩ := Step.run_eq_ok_iff.1 hd
  exact h.add (h.find_eq_none_iff.1 hnone)

/-- A run succeeds exactly when each of its names is declared once and was not declared before. -/
theorem Declarations.Indexed.run_isOk_iff (h : d.Indexed) :
    (∃ d', steps.foldlM (Step.run s) d = .ok d') ↔
      (steps.map Step.fullName).Nodup ∧ ∀ st ∈ steps, st.fullName ∉ d.names := by
  induction steps generalizing d with
  | nil => simp [pure, Except.pure]
  | cons st rest ih =>
    rw [List.foldlM_cons]
    by_cases hnew : st.fullName ∈ d.names
    · have hfail : ∀ d₁, st.run s d ≠ .ok d₁ := fun d₁ hd =>
        h.find_eq_none_iff.1 (Step.run_eq_ok_iff.1 hd).1 hnew
      constructor
      · rintro ⟨d', hd'⟩
        cases hd : st.run s d with
        | error e => rw [hd] at hd'; cases hd'
        | ok d₁ => exact absurd hd (hfail d₁)
      · rintro ⟨-, hall⟩
        exact absurd hnew (hall st List.mem_cons_self)
    · have hd : st.run s d = .ok (d.add st) :=
        Step.run_eq_ok_iff.2 ⟨h.find_eq_none_iff.2 hnew, rfl⟩
      rw [hd]
      refine (ih (h.add hnew)).trans ?_
      simp only [Declarations.mem_names_add, List.map_cons, List.nodup_cons, List.mem_map,
        List.mem_cons, forall_eq_or_imp, not_or, not_exists, not_and]
      constructor
      · rintro ⟨hn, hall⟩
        exact ⟨⟨fun st' hst' => (hall st' hst').2, hn⟩, hnew, fun st' hst' => (hall st' hst').1⟩
      · rintro ⟨⟨hne, hn⟩, -, hall⟩
        exact ⟨hn, fun st' hst' => ⟨hall st' hst', hne st' hst'⟩⟩

/-- The names of steps are those of their messages and of their enums. -/
theorem names_perm_steps (steps : List Step) :
    ((messagesOf steps).map (·.fullName) ++ (enumsOf steps).map (·.fullName)).Perm
      (steps.map Step.fullName) := by
  induction steps with
  | nil => exact .nil
  | cons st rest ih =>
    cases st with
    | message m => exact ih.cons m.fullName
    | enum e => exact List.perm_middle.trans (ih.cons e.fullName)

end

/-- What the first pass leaves behind: the messages and enums of its steps, under distinct names,
and a table that leads to them. -/
structure Declared (s : FileSet) (d : Declarations) : Prop where
  run : (stepsOf s).foldlM (Step.run s) (.start s) = .ok d
  messages : d.messages = messagesOf (stepsOf s)
  enums : d.enums = enumsOf (stepsOf s)
  nodup : d.names.Nodup
  indexed : d.Indexed

/-- The first pass succeeds exactly when no full name is declared twice. -/
theorem declareAll_isOk_iff {s : FileSet} :
    (∃ d, declareAll s = .ok d) ↔ ((stepsOf s).map Step.fullName).Nodup := by
  rw [declareAll_eq_foldlM, (Declarations.indexed_start s).run_isOk_iff]
  simp [Declarations.names, Declarations.start]

/-- The state after the first pass. -/
theorem declared_of_declareAll {s : FileSet} {d : Declarations} (h : declareAll s = .ok d) :
    Declared s d := by
  have hnd := declareAll_isOk_iff.1 ⟨d, h⟩
  rw [declareAll_eq_foldlM] at h
  obtain ⟨hm, he⟩ := lists_of_run h
  rw [Declarations.start, List.nil_append] at hm he
  refine ⟨h, hm, he, ?_, (Declarations.indexed_start s).run h⟩
  rw [Declarations.names, hm, he]
  exact (names_perm_steps _).nodup_iff.2 hnd

end ProtoStub.Program
