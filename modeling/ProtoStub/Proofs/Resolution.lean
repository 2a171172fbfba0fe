import ProtoStub.Proofs.Outline

/-!
# The resolution pass

One statement per function of the second pass, each an equivalence with a successful result, so that
no later proof has to open the functions again. A type name stands for the first of its candidates
that is a visible type (`resolve_eq_ok_iff`), fields are resolved one by one under checks on their
numbers and names (`resolveFields_eq_ok_iff`), and the walk over nested messages visits the outline
of the file (`resolveMessages_eq_mapM`). `build_eq_ok_iff` puts the passes together. The second pass
finds a message again by its full name; `numberOf_message` says that it finds the message it came
from, so the fields it attaches to a message are that message's own (`fieldsOf_found`). `Built` is
what later proofs use of a program.
-/

namespace ProtoStub.Program

open Schema (FileSet)

/-! ## Errors -/

/-- What is left without the error is the result. -/
theorem toOption_eq_some_iff {ε α : Type} {x : Except ε α} {a : α} :
    x.toOption = some a ↔ x = .ok a := by
  cases x with
  | error e => simp [Except.toOption]
  | ok b => simp [Except.toOption]

/-- A bind succeeds when both parts do. -/
theorem bind_eq_ok_iff {ε α β : Type} {x : Except ε α} {g : α → Except ε β} {b : β} :
    (x >>= g) = .ok b ↔ ∃ a, x = .ok a ∧ g a = .ok b := by
  cases x with
  | error e => simp [bind, Except.bind]
  | ok a => simp [bind, Except.bind]

/-- A map succeeds when it does so on every item. -/
theorem mapM_eq_ok_iff {ε α β : Type} {g : α → Except ε β} {xs : List α} {ys : List β} :
    xs.mapM g = .ok ys ↔ List.Forall₂ (fun x y => g x = .ok y) xs ys := by
  induction xs generalizing ys with
  | nil => cases ys <;> simp [pure, Except.pure]
  | cons x xs ih =>
    rw [List.mapM_cons, bind_eq_ok_iff, List.forall₂_cons_left_iff]
    constructor
    · rintro ⟨y, hy, h⟩
      obtain ⟨zs, hzs, h⟩ := bind_eq_ok_iff.1 h
      cases h
      exact ⟨y, zs, hy, ih.1 hzs, rfl⟩
    · rintro ⟨y, zs, hy, hzs, rfl⟩
      exact ⟨y, hy, bind_eq_ok_iff.2 ⟨zs, ih.2 hzs, rfl⟩⟩

/-- The items of a list are related to those of another when each is related to something. -/
theorem exists_forall₂_iff {α β : Type} {R : α → β → Prop} {xs : List α} :
    (∃ ys, List.Forall₂ R xs ys) ↔ ∀ x ∈ xs, ∃ y, R x y := by
  induction xs with
  | nil => simp
  | cons x xs ih =>
    simp only [List.forall₂_cons_left_iff, List.mem_cons, forall_eq_or_imp, ← ih]
    constructor
    · rintro ⟨ys, y, zs, hy, hzs, rfl⟩
      exact ⟨⟨y, hy⟩, zs, hzs⟩
    · rintro ⟨⟨y, hy⟩, zs, hzs⟩
      exact ⟨_, y, zs, hy, hzs, rfl⟩

/-! ## Type names -/

/-- The type that a full name stands for, as seen from a file that sees the files `sees`: a
well-known type, or a declaration of a file that is seen. The name of a well-known type stands for
that type whatever else is declared under it. -/
inductive VisibleType (d : Declarations) (sees : Nat → Prop) (name : String) : TypeRef → Prop
  | wellKnown {w : String} (hw : wellKnown? name = some w) :
    VisibleType d sees name (.wellKnown w)
  | message {i : Nat} {m : DeclaredMessage} (hw : wellKnown? name = none)
    (hm : d.messages[i]? = some m) (hname : m.fullName = name) (hs : sees m.file) :
    VisibleType d sees name (.message i)
  | enum {i : Nat} {e : DeclaredEnum} (hw : wellKnown? name = none) (he : d.enums[i]? = some e)
    (hname : e.fullName = name) (hs : sees e.file) : VisibleType d sees name (.enum i)

/-- The first of the names that stands for a type stands for `t`. -/
def FirstVisible (d : Declarations) (sees : Nat → Prop) (names : List String) (t : TypeRef) :
    Prop :=
  ∃ before name after, names = before ++ name :: after ∧ VisibleType d sees name t ∧
    ∀ earlier ∈ before, ∀ t', ¬ VisibleType d sees earlier t'

section
variable {s : FileSet} {d : Declarations} {visible : List Nat}

/-- A name stands for a type when it is a well-known one or the full name of a declaration that is
seen. -/
theorem exists_visibleType_iff {sees : Nat → Prop} {name : String} :
    (∃ t, VisibleType d sees name t) ↔ (wellKnown? name).isSome ∨
      (∃ m ∈ d.messages, m.fullName = name ∧ sees m.file) ∨
      ∃ e ∈ d.enums, e.fullName = name ∧ sees e.file := by
  constructor
  · rintro ⟨t, ht⟩
    cases ht with
    | wellKnown hw => exact .inl (hw ▸ rfl)
    | message _ hm hname hs => exact .inr (.inl ⟨_, List.mem_of_getElem? hm, hname, hs⟩)
    | enum _ he hname hs => exact .inr (.inr ⟨_, List.mem_of_getElem? he, hname, hs⟩)
  · cases hw : wellKnown? name with
    | some w => exact fun _ => ⟨_, .wellKnown hw⟩
    | none =>
      rintro (hs | ⟨m, hm, hname, hs⟩ | ⟨e, he, hname, hs⟩)
      · cases hs
      · obtain ⟨i, hi⟩ := List.mem_iff_getElem?.1 hm
        exact ⟨_, .message hw hi hname hs⟩
      · obtain ⟨i, hi⟩ := List.mem_iff_getElem?.1 he
        exact ⟨_, .enum hw hi hname hs⟩

/-- Looking a name up finds the type that it stands for. -/
theorem Declarations.Indexed.look_eq_found_iff (h : d.Indexed) {name : String} {t : TypeRef} :
    Names.look ⟨s, d.symbols⟩ visible name = .found t ↔
      VisibleType d (· ∈ visible) name t := by
  rw [Names.look]
  cases hw : wellKnown? name with
  | some w =>
    simp only [Candidate.found.injEq]
    constructor
    · rintro rfl
      exact .wellKnown hw
    · rintro (hw' | hw' | hw')
      · rw [hw] at hw'; cases hw'; rfl
      · rw [hw] at hw'; cases hw'
      · rw [hw] at hw'; cases hw'
  | none =>
    dsimp only
    constructor
    · intro hl
      cases hf : d.symbols.find name with
      | none => rw [hf] at hl; cases hl
      | some e =>
        have hname := SymbolTable.fullName_of_find hf
        subst hname
        have hold := (h e).1 hf
        obtain ⟨name, symbol, file⟩ := e
        simp only [hf, List.contains_iff_mem] at hl
        split at hl
        · rename_i hv
          cases hl
          cases symbol with
          | message i =>
            obtain ⟨m, hm, hname, rfl⟩ := hold
            exact .message hw hm hname hv
          | enum i =>
            obtain ⟨x, hx, hname, rfl⟩ := hold
            exact .enum hw hx hname hv
        · cases hl
    · rintro (hw' | ⟨-, hm, hname, hv⟩ | ⟨-, he, hname, hv⟩)
      · rw [hw] at hw'; cases hw'
      · rename_i i m
        have hf := (h ⟨name, .message i, m.file⟩).2 ⟨m, hm, hname, rfl⟩
        simp [hf, hv, Symbol.type]
      · rename_i i x
        have hf := (h ⟨name, .enum i, x.file⟩).2 ⟨x, he, hname, rfl⟩
        simp [hf, hv, Symbol.type]

/-- A name stands for one type. -/
theorem Declarations.Indexed.visibleType_unique (h : d.Indexed) {name : String} {t t' : TypeRef}
    (ht : VisibleType d (· ∈ visible) name t) (ht' : VisibleType d (· ∈ visible) name t') :
    t = t' := by
  have hl := (h.look_eq_found_iff (s := {})).2 ht
  rw [(h.look_eq_found_iff (s := {})).2 ht'] at hl
  exact (Candidate.found.inj hl).symm

/-- The search over candidates succeeds with the first that stands for a type, whatever hint it
carries along. -/
theorem Declarations.Indexed.firstOf_eq_ok_iff (h : d.Indexed) (hint : Hint)
    {names : List String} {t : TypeRef} :
    Names.firstOf ⟨s, d.symbols⟩ visible hint names = .ok t ↔
      FirstVisible d (· ∈ visible) names t := by
  induction names generalizing hint with
  | nil =>
    constructor
    · intro hf
      cases hf
    · rintro ⟨before, name, after, hnil, -⟩
      simp at hnil
  | cons c rest ih =>
    -- A candidate that is no type is passed over, whatever hint it leaves behind.
    have hskip : (∀ t', ¬ VisibleType d (· ∈ visible) c t') →
        (FirstVisible d (· ∈ visible) (c :: rest) t ↔
          FirstVisible d (· ∈ visible) rest t) := by
      intro hc
      constructor
      · rintro ⟨before, name, after, hcons, ht, hbefore⟩
        cases before with
        | nil =>
          cases hcons
          exact absurd ht (hc t)
        | cons b before =>
          cases hcons
          exact ⟨before, name, after, rfl, ht,
            fun q hq => hbefore q (List.mem_cons_of_mem _ hq)⟩
      · rintro ⟨before, name, after, rfl, ht, hbefore⟩
        refine ⟨c :: before, name, after, rfl, ht, fun q hq => ?_⟩
        rcases List.mem_cons.1 hq with rfl | hq
        · exact hc
        · exact hbefore q hq
    have hlook : ∀ t', Names.look ⟨s, d.symbols⟩ visible c = .found t' ↔
        VisibleType d (· ∈ visible) c t' := fun t' => h.look_eq_found_iff
    rw [Names.firstOf]
    cases hl : Names.look ⟨s, d.symbols⟩ visible c with
    | found t₀ =>
      have ht₀ := (hlook t₀).1 hl
      constructor
      · intro he
        cases he
        exact ⟨[], c, rest, rfl, ht₀, fun _ hq => nomatch hq⟩
      · rintro ⟨before, name, after, hcons, ht, hbefore⟩
        cases before with
        | nil =>
          cases hcons
          rw [h.visibleType_unique ht₀ ht]
        | cons b before =>
          cases hcons
          exact absurd ht₀ (hbefore _ List.mem_cons_self t₀)
    | hidden file =>
      exact (ih _).trans (hskip fun t' ht' => by rw [(hlook t').2 ht'] at hl; cases hl).symm
    | absent =>
      exact (ih _).trans (hskip fun t' ht' => by rw [(hlook t').2 ht'] at hl; cases hl).symm

/-- A type name stands for a scalar, or for the first of its candidates that is a type. -/
theorem Declarations.Indexed.resolve_eq_ok_iff (h : d.Indexed) {file : Nat} {scope ref : String}
    {t : TypeRef} :
    Names.resolve ⟨s, d.symbols⟩ visible file scope ref = .ok t ↔
      match Scalar.ofWord? ref with
      | some w => t = .scalar w
      | none => FirstVisible d (· ∈ visible) (candidates scope ref) t := by
  rw [Names.resolve]
  cases Scalar.ofWord? ref with
  | some w => simp [eq_comm]
  | none =>
    dsimp only
    rw [← h.firstOf_eq_ok_iff (s := s) .none]
    cases Names.firstOf ⟨s, d.symbols⟩ visible .none (candidates scope ref) with
    | ok t₀ => simp
    | error hint => cases hint <;> simp

end

/-! ## Fields and procedures -/

/-- The field `r` is the field `f` of the message `name` with its type resolved in the scope
`owner`. -/
def FieldResolves (n : Names) (visible : List Nat) (file : Nat) (owner name : String)
    (f : Schema.Field) (r : Field) : Prop :=
  n.resolve visible file owner f.type = .ok r.type ∧
    r = ⟨f.name, jsonName name f.name, f.number, f.repeated, r.type⟩

section
variable {n : Names} {visible : List Nat} {file : Nat} {owner name scope : String}

/-- One field is resolved when it is no map, its number and its name are new and its type is
known. -/
theorem resolveFields_cons_eq_ok_iff {done : List Field} {f : Schema.Field}
    {rest : List Schema.Field} {out : List Field} :
    resolveFields n visible file owner name done (f :: rest) = .ok out ↔
      f.isMap = false ∧ f.number ∉ done.map (·.number) ∧ f.name ∉ done.map (·.name) ∧
        ∃ r, FieldResolves n visible file owner name f r ∧
          resolveFields n visible file owner name (done ++ [r]) rest = .ok out := by
  rw [resolveFields]
  cases hmap : f.isMap with
  | true => simp
  | false =>
    simp only [Bool.false_eq_true, ↓reduceIte, true_and]
    cases hnum : done.find? (·.number == f.number) with
    | some other =>
      have hmem : f.number ∈ done.map (·.number) :=
        List.mem_map.2 ⟨other, List.mem_of_find?_eq_some hnum, by simpa using List.find?_some hnum⟩
      simp [hmem]
    | none =>
      have hnew : f.number ∉ done.map (·.number) := by
        rintro hmem
        obtain ⟨other, ho, he⟩ := List.mem_map.1 hmem
        simpa [he] using List.find?_eq_none.1 hnum other ho
      by_cases hname : f.name ∈ done.map (·.name)
      · have hany : done.any (·.name == f.name) = true := by
          obtain ⟨other, ho, he⟩ := List.mem_map.1 hname
          exact List.any_eq_true.2 ⟨other, ho, by simpa using he⟩
        simp [hany, hname]
      · have hany : ¬ done.any (·.name == f.name) = true := by
          rintro ha
          obtain ⟨other, ho, he⟩ := List.any_eq_true.1 ha
          exact hname (List.mem_map.2 ⟨other, ho, by simpa using he⟩)
        simp only [hany, hnew, hname, not_false_eq_true, true_and, Bool.false_eq_true, ↓reduceIte,
          FieldResolves]
        cases hr : n.resolve visible file owner f.type with
        | error e => simp
        | ok t =>
          constructor
          · intro h
            exact ⟨_, ⟨rfl, rfl⟩, h⟩
          · rintro ⟨r, ⟨ht, he⟩, h⟩
            cases ht
            rwa [he] at h

/-- Fields are resolved when none is a map, their numbers and their names are distinct, and each
type is known. -/
theorem resolveFields_eq_ok_iff {done : List Field} {fs : List Schema.Field} {out : List Field} :
    resolveFields n visible file owner name done fs = .ok out ↔
      (∀ f ∈ fs, f.isMap = false ∧ f.number ∉ done.map (·.number) ∧ f.name ∉ done.map (·.name)) ∧
        (fs.map (·.number)).Nodup ∧ (fs.map (·.name)).Nodup ∧
        ∃ new, List.Forall₂ (FieldResolves n visible file owner name) fs new ∧
          out = done ++ new := by
  induction fs generalizing done with
  | nil =>
    constructor
    · intro h
      cases h
      exact ⟨by simp, .nil, .nil, [], .nil, (List.append_nil _).symm⟩
    · rintro ⟨-, -, -, new, hnew, rfl⟩
      cases hnew
      rw [List.append_nil]
      rfl
  | cons f rest ih =>
    rw [resolveFields_cons_eq_ok_iff]
    constructor
    · rintro ⟨hmap, hnum, hname, r, hr, h⟩
      obtain ⟨hrest, hnums, hnames, new, hnew, rfl⟩ := ih.1 h
      have hrn : r.number = f.number := by rw [hr.2]
      have hrm : r.name = f.name := by rw [hr.2]
      simp only [List.map_append, List.map_singleton, List.mem_append, List.mem_singleton, hrn, hrm,
        not_or] at hrest
      refine ⟨?_, List.nodup_cons.2 ⟨?_, hnums⟩, List.nodup_cons.2 ⟨?_, hnames⟩, r :: new,
        .cons hr hnew, by simp⟩
      · intro g hg
        rcases List.mem_cons.1 hg with rfl | hg
        · exact ⟨hmap, hnum, hname⟩
        · exact ⟨(hrest g hg).1, (hrest g hg).2.1.1, (hrest g hg).2.2.1⟩
      · intro hmem
        obtain ⟨g, hg, he⟩ := List.mem_map.1 hmem
        exact (hrest g hg).2.1.2 he
      · intro hmem
        obtain ⟨g, hg, he⟩ := List.mem_map.1 hmem
        exact (hrest g hg).2.2.2 he
    · rintro ⟨hall, hnums, hnames, new, hnew, rfl⟩
      obtain ⟨hnum, hnums⟩ := List.nodup_cons.1 hnums
      obtain ⟨hname, hnames⟩ := List.nodup_cons.1 hnames
      cases hnew with
      | @cons _ r _ new hr hnew =>
        obtain ⟨hmap, hdn, hdm⟩ := hall f List.mem_cons_self
        refine ⟨hmap, hdn, hdm, r, hr, ih.2 ⟨?_, hnums, hnames, new, hnew, by simp⟩⟩
        have hrn : r.number = f.number := by rw [hr.2]
        have hrm : r.name = f.name := by rw [hr.2]
        intro g hg
        obtain ⟨h₁, h₂, h₃⟩ := hall g (List.mem_cons_of_mem _ hg)
        simp only [List.map_append, List.map_singleton, List.mem_append, List.mem_singleton, hrn,
          hrm, not_or]
        exact ⟨h₁, ⟨h₂, fun he => hnum (List.mem_map.2 ⟨g, hg, he⟩)⟩,
          h₃, fun he => hname (List.mem_map.2 ⟨g, hg, he⟩)⟩

/-- What the second pass finds for one message of the outline. -/
def resolveOutlined (n : Names) (visible : List Nat) (file : Nat) (x : String × Schema.Message) :
    Except Error (Nat × List Field) :=
  match resolveFields n visible file (joinScope x.1 x.2.name) x.2.name [] x.2.fields with
  | .error e => .error e
  | .ok own => .ok (n.numberOf (joinScope x.1 x.2.name), own)

/-- A message of the outline is resolved when its fields are. -/
theorem resolveOutlined_eq_ok_iff {n : Names} {visible : List Nat} {file : Nat}
    {x : String × Schema.Message} {y : Nat × List Field} :
    resolveOutlined n visible file x = .ok y ↔
      ∃ own, resolveFields n visible file (joinScope x.1 x.2.name) x.2.name [] x.2.fields =
        .ok own ∧
        y = (n.numberOf (joinScope x.1 x.2.name), own) := by
  rw [resolveOutlined]
  cases resolveFields n visible file (joinScope x.1 x.2.name) x.2.name [] x.2.fields with
  | error e => simp
  | ok own => simp [eq_comm]

mutual

/-- The walk over a message visits its outline. -/
theorem resolveMessage_eq_mapM (n : Names) (visible : List Nat) (file : Nat) (scope : String) :
    ∀ m : Schema.Message, resolveMessage n visible file scope m =
      (m.withNested scope).mapM (resolveOutlined n visible file)
  | ⟨name, line, fields, messages, enums⟩ => by
    rw [resolveMessage, Schema.Message.withNested, List.mapM_cons, resolveOutlined,
      ← resolveMessages_eq_mapM n visible file (joinScope scope name) messages]
    dsimp only
    cases resolveFields n visible file (joinScope scope name) name [] fields with
    | error e => rfl
    | ok own =>
      cases resolveMessages n visible file (joinScope scope name) messages <;> rfl

/-- The walk over messages visits their outline. -/
theorem resolveMessages_eq_mapM (n : Names) (visible : List Nat) (file : Nat) (scope : String) :
    ∀ ms : List Schema.Message, resolveMessages n visible file scope ms =
      (Schema.Message.allWithNested scope ms).mapM (resolveOutlined n visible file)
  | [] => by rw [resolveMessages, Schema.Message.allWithNested]; rfl
  | m :: rest => by
    rw [resolveMessages, Schema.Message.allWithNested, List.mapM_append,
      ← resolveMessage_eq_mapM n visible file scope m,
      ← resolveMessages_eq_mapM n visible file scope rest]
    cases resolveMessage n visible file scope m with
    | error e => rfl
    | ok fields => cases resolveMessages n visible file scope rest <;> rfl

end

/-- A procedure is resolved when its request and its response are known messages. -/
theorem resolveMethod_eq_ok_iff {m : Schema.Method} {r : Method} :
    resolveMethod n visible file scope owner m = .ok r ↔
      n.resolve visible file scope m.input = .ok r.input ∧
        n.resolve visible file scope m.output = .ok r.output ∧
        isMessageType r.input = true ∧ isMessageType r.output = true ∧
        r = ⟨m.name, r.input, r.output, m.clientStreaming, m.serverStreaming⟩ := by
  simp only [resolveMethod]
  cases n.resolve visible file scope m.input with
  | error e => simp
  | ok input =>
    cases n.resolve visible file scope m.output with
    | error e => simp
    | ok output =>
      dsimp only
      split
      · rename_i hio
        rw [Bool.and_eq_true] at hio
        constructor
        · intro h
          cases h
          exact ⟨rfl, rfl, hio.1, hio.2, rfl⟩
        · rintro ⟨hi, ho, -, -, he⟩
          cases hi
          cases ho
          rw [he]
      · rename_i hio
        simp only [reduceCtorEq, false_iff]
        rintro ⟨hi, ho, hmi, hmo, -⟩
        cases hi
        cases ho
        exact hio (by rw [hmi, hmo]; rfl)

/-- A service is resolved when its procedures are. -/
theorem resolveService_eq_ok_iff {svc : Schema.Service} {r : Service} :
    resolveService n visible file scope svc = .ok r ↔
      List.Forall₂
        (fun m r => resolveMethod n visible file scope (joinScope scope svc.name) m = .ok r)
        svc.methods r.methods ∧ r.name = svc.name := by
  rw [resolveService, ← mapM_eq_ok_iff]
  cases List.mapM (resolveMethod n visible file scope (joinScope scope svc.name)) svc.methods with
  | error e => simp
  | ok methods =>
    obtain ⟨name, ms⟩ := r
    simp only [Except.ok.injEq, Service.mk.injEq]
    exact ⟨fun h => ⟨h.2, h.1.symm⟩, fun h => ⟨h.2.symm, h.1⟩⟩

/-- A file is resolved when its messages and its services are. -/
theorem resolveFile_eq_ok_iff {k : Nat} {f : Schema.File} {r : ResolvedFile} :
    resolveFile n (k, f) = .ok r ↔
      List.Forall₂ (fun x y => resolveOutlined n (n.set.visibleFrom k) k x = .ok y)
          f.allMessages r.fields ∧
        List.Forall₂ (fun x y => resolveService n (n.set.visibleFrom k) k f.package x = .ok y)
          f.services r.services := by
  rw [resolveFile]
  dsimp only
  rw [resolveMessages_eq_mapM, bind_eq_ok_iff, ← mapM_eq_ok_iff, ← mapM_eq_ok_iff]
  constructor
  · rintro ⟨fields, hf, h⟩
    obtain ⟨services, hs, h⟩ := bind_eq_ok_iff.1 h
    cases h
    exact ⟨hf, hs⟩
  · rintro ⟨hf, hs⟩
    exact ⟨r.fields, hf, bind_eq_ok_iff.2 ⟨r.services, hs, rfl⟩⟩

end

/-! ## Programs -/

/-- A check succeeds when it does so on every item. -/
theorem forM_eq_ok_iff {ε α : Type} {g : α → Except ε Unit} {xs : List α} :
    xs.forM g = .ok () ↔ ∀ x ∈ xs, g x = .ok () := by
  induction xs with
  | nil => simp [pure, Except.pure]
  | cons x xs ih =>
    show (g x >>= fun _ => xs.forM g) = .ok () ↔ _
    rw [bind_eq_ok_iff]
    simp only [List.mem_cons, forall_eq_or_imp, ← ih]
    exact ⟨fun ⟨_, h⟩ => h, fun h => ⟨(), h⟩⟩

/-- Every import leads to a file of the set. -/
theorem checkImports_eq_ok_iff {s : FileSet} :
    checkImports s = .ok () ↔
      ∀ f ∈ s.files, ∀ imp ∈ f.imports, imp.resolved ≠ "" →
        ∃ g ∈ s.files, g.path = imp.resolved := by
  rw [checkImports]
  simp only [forM_eq_ok_iff]
  refine forall₂_congr fun f _ => forall₂_congr fun imp _ => ?_
  split
  · rename_i h
    simp only [Bool.or_eq_true, beq_iff_eq, FileSet.index?, List.findIdx?_isSome, List.any_eq_true]
      at h
    simp only [true_iff]
    exact fun hne => h.resolve_left hne
  · rename_i h
    simp only [Bool.or_eq_true, beq_iff_eq, FileSet.index?, List.findIdx?_isSome, List.any_eq_true,
      not_or] at h
    simp only [reduceCtorEq, false_iff]
    exact fun himp => h.2 (himp h.1)

/-- A program is built when the imports are there, no name is declared twice, and every file is
resolved. -/
theorem build_eq_ok_iff {s : FileSet} {options : BuildOptions} {p : Program} :
    build s options = .ok p ↔
      checkImports s = .ok () ∧ ∃ d, declareAll s = .ok d ∧ ∃ resolved,
        List.Forall₂ (fun file r => resolveFile ⟨s, d.symbols⟩ file = .ok r)
          (numberedFiles s) resolved ∧
        p = assemble s options d resolved := by
  rw [build, bind_eq_ok_iff]
  constructor
  · rintro ⟨⟨⟩, hc, h⟩
    obtain ⟨d, hd, h⟩ := bind_eq_ok_iff.1 h
    obtain ⟨resolved, hr, h⟩ := bind_eq_ok_iff.1 h
    cases h
    exact ⟨hc, d, hd, resolved, mapM_eq_ok_iff.1 hr, rfl⟩
  · rintro ⟨hc, d, hd, resolved, hr, rfl⟩
    exact ⟨(), hc, bind_eq_ok_iff.2 ⟨d, hd, bind_eq_ok_iff.2 ⟨resolved, mapM_eq_ok_iff.2 hr, rfl⟩⟩⟩

/-! ## Related lists -/

/-- Related lists have the same images under functions that agree on related items. -/
theorem map_eq_of_forall₂ {α β γ : Type} {R : α → β → Prop} {xs : List α} {ys : List β}
    (h : List.Forall₂ R xs ys) {f : α → γ} {g : β → γ} (hfg : ∀ a b, R a b → f a = g b) :
    xs.map f = ys.map g := by
  induction h with
  | nil => rfl
  | cons hab _ ih => rw [List.map_cons, List.map_cons, hfg _ _ hab, ih]

/-! ## What is found for each message -/

/-- Related lists have related items at each position. -/
theorem forall₂_getElem? {α β : Type} {R : α → β → Prop} {xs : List α} {ys : List β}
    (h : List.Forall₂ R xs ys) {i : Nat} {x : α} (hx : xs[i]? = some x) :
    ∃ y, ys[i]? = some y ∧ R x y := by
  induction h generalizing i with
  | nil => cases hx
  | cons hab _ ih =>
    cases i with
    | zero =>
      cases hx
      exact ⟨_, rfl, hab⟩
    | succ i => exact ih hx

section
variable {s : FileSet} {d : Declarations}

/-- The second pass finds a message again at its own number. -/
theorem Declarations.Indexed.numberOf_message (h : d.Indexed) {i : Nat} {m : DeclaredMessage}
    (hm : d.messages[i]? = some m) : Names.numberOf ⟨s, d.symbols⟩ m.fullName = i := by
  have hf := (h ⟨m.fullName, .message i, m.file⟩).2 ⟨m, hm, rfl, rfl⟩
  rw [Names.numberOf]
  simp only [hf]
  rfl

/-- What the second pass finds, message by message of the outline. -/
theorem forall₂_found {n : Names} {files : List (Nat × Schema.File)}
    {resolved : List ResolvedFile}
    (h : List.Forall₂ (fun file r => resolveFile n file = .ok r) files resolved) :
    List.Forall₂ (fun x y => resolveOutlined n (n.set.visibleFrom x.1) x.1 x.2 = .ok y)
      (files.flatMap fun file => file.2.allMessages.map (file.1, ·))
      (resolved.flatMap (·.fields)) := by
  induction h with
  | nil => exact .nil
  | cons hr _ ih =>
    rw [List.flatMap_cons, List.flatMap_cons]
    refine List.rel_append ?_ ih
    rw [List.forall₂_map_left_iff]
    exact (resolveFile_eq_ok_iff.1 hr).1

/-- What the second pass finds, message by message of the declarations: the number under which the
message is found again, and its fields. -/
theorem Declared.forall₂_found (h : Declared s d) {resolved : List ResolvedFile}
    (hr : List.Forall₂ (fun file r => resolveFile ⟨s, d.symbols⟩ file = .ok r)
      (numberedFiles s) resolved) :
    List.Forall₂ (fun m y => y.1 = Names.numberOf ⟨s, d.symbols⟩ m.fullName ∧
        resolveFields ⟨s, d.symbols⟩ (s.visibleFrom m.file) m.file m.fullName m.raw.name []
          m.raw.fields = .ok y.2)
      d.messages (resolved.flatMap (·.fields)) := by
  let Q : Nat × String × Schema.Message → Nat × List Field → Prop := fun x y =>
    y.1 = Names.numberOf ⟨s, d.symbols⟩ x.2.1 ∧
      resolveFields ⟨s, d.symbols⟩ (s.visibleFrom x.1) x.1 x.2.1 x.2.2.name [] x.2.2.fields =
        .ok y.2
  -- The outline and the declarations agree on file, full name and declared message.
  have hQ : List.Forall₂ Q (s.allMessages.map fun x => (x.1, joinScope x.2.1 x.2.2.name, x.2.2))
      (resolved.flatMap (·.fields)) := by
    rw [List.forall₂_map_left_iff]
    refine (Program.forall₂_found hr).imp fun x y hy => ?_
    rw [resolveOutlined] at hy
    split at hy
    · cases hy
    · rename_i own hown
      cases hy
      exact ⟨rfl, hown⟩
  rw [← messagesOf_stepsOf_map, ← h.messages, List.forall₂_map_left_iff] at hQ
  exact hQ

/-- The fields attached to a number, when every number was found once. -/
theorem fieldsOf_eq {found : List (Nat × List Field)} {i : Nat} {fields : List Field}
    (hnd : (found.map (·.1)).Nodup) (hmem : (i, fields) ∈ found) : fieldsOf found i = fields := by
  obtain ⟨before, after, rfl⟩ := List.append_of_mem hmem
  rw [List.map_append, List.map_cons, List.nodup_append, List.nodup_cons] at hnd
  obtain ⟨-, ⟨hafter, -⟩, hbefore⟩ := hnd
  have hb : before.filter (·.1 == i) = [] := by
    refine List.filter_eq_nil_iff.2 fun x hx he => ?_
    exact hbefore _ (List.mem_map_of_mem hx) i List.mem_cons_self (by simpa using he)
  have ha : after.filter (·.1 == i) = [] := by
    refine List.filter_eq_nil_iff.2 fun x hx he => hafter ?_
    exact List.mem_map.2 ⟨x, hx, by simpa using he⟩
  simp [fieldsOf, hb, ha]

/-- The fields attached to a message are the fields of its own declaration. -/
theorem Declared.fieldsOf_found (h : Declared s d) {resolved : List ResolvedFile}
    (hr : List.Forall₂ (fun file r => resolveFile ⟨s, d.symbols⟩ file = .ok r)
      (numberedFiles s) resolved) {i : Nat} {m : DeclaredMessage}
    (hm : d.messages[i]? = some m) :
    resolveFields ⟨s, d.symbols⟩ (s.visibleFrom m.file) m.file m.fullName m.raw.name []
      m.raw.fields = .ok (fieldsOf (resolved.flatMap (·.fields)) i) := by
  have hf := h.forall₂_found hr
  have hfst : (resolved.flatMap (·.fields)).map (·.1) = List.range d.messages.length := by
    refine List.ext_getElem? fun j => ?_
    rw [List.getElem?_map]
    cases hj : d.messages[j]? with
    | none =>
      have hlen := List.getElem?_eq_none_iff.1 hj
      rw [List.getElem?_eq_none (hf.length_eq ▸ hlen), List.getElem?_eq_none (by simpa using hlen)]
      rfl
    | some m' =>
      obtain ⟨y, hy, hnum, -⟩ := forall₂_getElem? hf hj
      rw [hy, List.getElem?_range (List.getElem?_eq_some_iff.1 hj).1, Option.map_some, hnum,
        h.indexed.numberOf_message hj]
  obtain ⟨⟨j, fields⟩, hy, hnum, hfields⟩ := forall₂_getElem? hf hm
  rw [h.indexed.numberOf_message hm] at hnum
  cases hnum
  rw [fieldsOf_eq (hfst ▸ List.nodup_range) (List.mem_of_getElem? hy)]
  exact hfields

end

/-- What a program is made of: the declarations `d` of the set, each message with the fields of its
own declaration, and each file with its services. -/
structure Built (s : FileSet) (options : BuildOptions) (d : Declarations) (p : Program) : Prop where
  imports : checkImports s = .ok ()
  declared : Declared s d
  messages_length : p.messages.length = d.messages.length
  message : ∀ {i m}, d.messages[i]? = some m → ∃ fields,
    p.messages[i]? = some (d.messageOf i m fields) ∧
      resolveFields ⟨s, d.symbols⟩ (s.visibleFrom m.file) m.file m.fullName m.raw.name []
        m.raw.fields = .ok fields
  enums : p.enums = d.enums.map (·.toEnum)
  files_length : p.files.length = s.files.length
  file : ∀ {k f}, s.files[k]? = some f → ∃ services,
    p.files[k]? = some (d.fileOf s options k f services) ∧
      List.Forall₂
        (fun x y => resolveService ⟨s, d.symbols⟩ (s.visibleFrom k) k f.package x = .ok y)
        f.services services

/-- A program that is built is made of the declarations of its set. -/
theorem exists_built {s : FileSet} {options : BuildOptions} {p : Program}
    (h : build s options = .ok p) : ∃ d, Built s options d p := by
  obtain ⟨hc, d, hd, resolved, hr, rfl⟩ := build_eq_ok_iff.1 h
  have hdecl := declared_of_declareAll hd
  refine ⟨d, hc, hdecl, by simp [assemble], fun {i m} hm => ?_, rfl, ?_, fun {k f} hf => ?_⟩
  · refine ⟨_, ?_, hdecl.fieldsOf_found hr hm⟩
    simp [assemble, getElem?_zip_range, hm]
  · have hlen := hr.length_eq
    simp only [numberedFiles, List.length_zip, List.length_range, Nat.min_self] at hlen
    simp [assemble, numberedFiles, ← hlen]
  · have hk : (numberedFiles s)[k]? = some (k, f) := by rw [getElem?_numberedFiles, hf]; rfl
    obtain ⟨r, hrk, hres⟩ := forall₂_getElem? hr hk
    refine ⟨r.services, ?_, (resolveFile_eq_ok_iff.1 hres).2⟩
    have hz : ((numberedFiles s).zip resolved)[k]? = some ((k, f), r) :=
      List.getElem?_zip_eq_some.2 ⟨hk, hrk⟩
    simp only [assemble, List.getElem?_map, hz]
    rfl

end ProtoStub.Program
