import ProtoStub.Schema
import ProtoStub.Schema.Fault
import ProtoStub.Token.Numeral

/-!
# The grammar of schema files

`parseFile` reads the tokens of one file into the raw model. Only what the generators need is read:
options, reserved ranges, extension ranges and extensions are passed over as balanced runs of
tokens. Every production takes a token list and returns what it read with the tokens left over, and
a production that succeeds leaves fewer tokens than it was given; the loops end by that.
-/

namespace ProtoStub.Schema

/-- Reads something from the start of a token list. -/
abbrev Parser (α : Type) := List Token → Except Refusal (α × List Token)

/-- Success leaves fewer tokens. -/
def Parser.Advances {α : Type} (p : Parser α) : Prop :=
  ∀ {ts : List Token} {x : α} {rest : List Token}, p ts = .ok (x, rest) → rest.length < ts.length

/-- The refusal of a fault at the first of the tokens `ts`. -/
def refuse {α : Type} (ts : List Token) (fault : Option Lexeme → Fault) : Except Refusal α :=
  .error (.fault (ts.head?.map (·.line)) (fault (ts.head?.map (·.lexeme))))

/-! ## Words and marks -/

/-- One character token. -/
def symbol (c : Char) : Parser Unit
  | t :: rest => if t.isSymbol c then .ok ((), rest) else refuse (t :: rest) (.expectedSymbol c)
  | [] => refuse [] (.expectedSymbol c)

/-- One name, with its line. -/
def ident : Parser (String × Nat)
  | ⟨.ident name, line⟩ :: rest => .ok ((name, line), rest)
  | ts => refuse ts .expectedIdent

/-- The part of a dotted name after its first word. -/
def dottedTail : Parser String
  | [] => .ok ("", [])
  | t :: rest =>
    if t.isSymbol '.' then
      match rest with
      | ⟨.ident name, _⟩ :: rest' =>
        match dottedTail rest' with
        | .ok (tail, rest'') => .ok ("." ++ name ++ tail, rest'')
        | .error e => .error e
      | ts => refuse ts .expectedIdent
    else .ok ("", t :: rest)

/-- A dotted name. -/
def dotted : Parser String := fun ts =>
  match ident ts with
  | .error e => .error e
  | .ok ((name, _), rest) =>
    match dottedTail rest with
    | .ok (tail, rest') => .ok (name ++ tail, rest')
    | .error e => .error e

/-- A dotted name that may start with a dot. -/
def fullIdent : Parser String
  | t :: rest =>
    if t.isSymbol '.' then
      match dotted rest with
      | .ok (name, rest') => .ok ("." ++ name, rest')
      | .error e => .error e
    else dotted (t :: rest)
  | [] => dotted []

/-! ## Runs that are passed over -/

/-- Tokens that open a bracketed run. -/
def opens (t : Token) : Bool := t.isSymbol '{' || t.isSymbol '[' || t.isSymbol '('

/-- Tokens that close a bracketed run. -/
def closes (t : Token) : Bool := t.isSymbol '}' || t.isSymbol ']' || t.isSymbol ')'

/-- Passes over a statement inside `depth` open brackets: through a semicolon outside all brackets,
or through a closing brace that leaves all brackets and is not followed by a semicolon. -/
def skipStatement (depth : Int) : Parser Unit
  | [] => refuse [] fun _ => .unexpectedEnd
  | t :: rest =>
    if opens t then skipStatement (depth + 1) rest
    else if closes t then
      if depth == 1 && t.isSymbol '}' && !startsWithSymbol rest ';' then .ok ((), rest)
      else skipStatement (depth - 1) rest
    else if t.isSymbol ';' && depth == 0 then .ok ((), rest)
    else skipStatement depth rest

/-- Passes over the options of a field inside `depth` open square brackets. -/
def skipOptions (depth : Nat) : Parser Unit
  | [] => refuse [] fun _ => .unexpectedEnd
  | t :: rest =>
    if t.isSymbol '[' then skipOptions (depth + 1) rest
    else if t.isSymbol ']' then
      if depth ≤ 1 then .ok ((), rest) else skipOptions (depth - 1) rest
    else skipOptions depth rest

/-- The optional options of a field or enum value and the semicolon that ends it. -/
def endOfMember : Parser Unit := fun ts =>
  if startsWithSymbol ts '[' then
    match skipOptions 0 ts with
    | .ok (_, rest) => symbol ';' rest
    | .error e => .error e
  else symbol ';' ts

/-! ## Progress of the small productions -/

/-- A symbol takes one token. -/
theorem symbol_advances (c : Char) : (symbol c).Advances := by
  intro ts x rest h
  unfold symbol at h
  repeat' split at h
  all_goals simp_all [refuse]

/-- A name takes one token. -/
theorem ident_advances : ident.Advances := by
  intro ts x rest h
  unfold ident at h
  split at h <;> simp_all [refuse]

/-- The rest of a dotted name may be empty, so it takes tokens or none. -/
theorem dottedTail_length {ts rest : List Token} {s : String} (h : dottedTail ts = .ok (s, rest)) :
    rest.length ≤ ts.length := by
  fun_induction dottedTail ts generalizing s rest <;> simp_all [refuse]
  all_goals grind

/-- A dotted name takes its first word at least. -/
theorem dotted_advances : dotted.Advances := by
  intro ts x rest h
  unfold dotted at h
  repeat' split at h
  all_goals grind [ident_advances, Parser.Advances, → dottedTail_length]

/-- A name in full takes a word at least, whether a dot stands before it or not. -/
theorem fullIdent_advances : fullIdent.Advances := by
  intro ts x rest h
  unfold fullIdent at h
  repeat' split at h
  all_goals grind [dotted_advances, Parser.Advances]

/-- Passing over a statement takes the token that ends it. -/
theorem skipStatement_advances (depth : Int) : (skipStatement depth).Advances := by
  intro ts x rest h
  fun_induction skipStatement depth ts <;> simp_all [refuse] <;> grind

/-- Passing over options takes the bracket that closes them. -/
theorem skipOptions_advances (depth : Nat) : (skipOptions depth).Advances := by
  intro ts x rest h
  fun_induction skipOptions depth ts <;> simp_all [refuse] <;> grind

/-- The end of a member takes its semicolon. -/
theorem endOfMember_advances : endOfMember.Advances := by
  intro ts x rest h
  unfold endOfMember at h
  repeat' split at h
  all_goals grind [symbol_advances, skipOptions_advances, Parser.Advances]

/-! ## Blocks -/

/-- The items of a block, after its opening brace, through its closing brace. Lone semicolons and
statements that start with one of `passed` are passed over. -/
def block {α : Type} (unterminated : Fault) (passed : List String) (item : Parser α)
    (advances : item.Advances) (ts : List Token) : Except Refusal (List α × List Token) :=
  match ts with
  | [] => refuse [] fun _ => unterminated
  | t :: rest =>
    if t.isSymbol '}' then .ok ([], rest)
    else if t.isSymbol ';' then block unterminated passed item advances rest
    else if passed.any t.isWord then
      match h : skipStatement 0 (t :: rest) with
      | .error e => .error e
      | .ok (_, after) =>
        have := skipStatement_advances 0 h
        block unterminated passed item advances after
    else
      match h : item (t :: rest) with
      | .error e => .error e
      | .ok (x, after) =>
        have := advances h
        match block unterminated passed item advances after with
        | .error e => .error e
        | .ok (xs, after') => .ok (x :: xs, after')
termination_by ts.length
decreasing_by all_goals simp only [List.length_cons] at *; omega

/-- A block takes the brace that closes it; its items may be none. -/
theorem block_advances {α : Type} (unterminated : Fault) (passed : List String) (item : Parser α)
    (advances : item.Advances) : Parser.Advances (block unterminated passed item advances) := by
  intro ts xs rest h
  fun_induction block unterminated passed item advances ts generalizing xs rest <;>
    simp_all [refuse] <;> grind

/-- A name and the opening brace after it, following the word that introduces a block. -/
def blockHead : Parser (String × Nat) := fun ts =>
  match ident ts with
  | .error e => .error e
  | .ok (name, rest) =>
    match symbol '{' rest with
    | .error e => .error e
    | .ok (_, rest') => .ok (name, rest')

/-- The head of a block takes the name and the brace. -/
theorem blockHead_advances : blockHead.Advances := by
  intro ts x rest h
  unfold blockHead at h
  repeat' split at h
  all_goals grind [ident_advances, symbol_advances, Parser.Advances]

/-! ## Fields and oneofs -/

/-- An integer literal, as spelled. -/
def intLiteral (fault : Option Lexeme → Fault) : Parser (String × Nat)
  | ⟨.int spelling, line⟩ :: rest => .ok ((spelling, line), rest)
  | ts => refuse ts fault

/-- The label of a field, if it has one: whether the field is repeated. -/
def fieldLabel (ts : List Token) : Bool × List Token :=
  match ts with
  | t :: rest =>
    if t.isWord "repeated" then (true, rest)
    else if t.isWord "optional" || t.isWord "required" then (false, rest)
    else (false, ts)
  | [] => (false, ts)

/-- The type of a map field, after its opening angle bracket: the type of the values. -/
def mapType : Parser String := fun ts =>
  match fullIdent ts with
  | .error e => .error e
  | .ok (_, rest) =>
    match symbol ',' rest with
    | .error e => .error e
    | .ok (_, rest) =>
      match fullIdent rest with
      | .error e => .error e
      | .ok (value, rest) =>
        match symbol '>' rest with
        | .error e => .error e
        | .ok (_, rest) => .ok (value, rest)

/-- The type of a field: whether it is a map, and the type of the value or values. -/
def fieldType : Parser (Bool × String) := fun ts =>
  if startsWithWord ts "map" && startsWithSymbol (ts.drop 1) '<' then
    match mapType (ts.drop 2) with
    | .error e => .error e
    | .ok (value, rest) => .ok ((true, value), rest)
  else
    match fullIdent ts with
    | .error e => .error e
    | .ok (type, rest) => .ok ((false, type), rest)

/-- The number of a field, after its equals sign: at most 2³¹ - 1. -/
def fieldNumber : Parser Int := fun ts =>
  match intLiteral .expectedFieldNumber ts with
  | .error e => .error e
  | .ok ((spelling, line), rest) =>
    if intValue spelling < 0x80000000 then .ok (intValue spelling, rest)
    else .error (.fault (some line) (.invalidFieldNumber spelling))

/-- A field, through its semicolon. -/
def field : Parser Field := fun ts =>
  let line := (ts.head?.map (·.line)).getD 0
  let (repeated, rest) := fieldLabel ts
  if startsWithWord rest "group" then .error (.group line)
  else
    match fieldType rest with
    | .error e => .error e
    | .ok ((isMap, type), rest) =>
      match ident rest with
      | .error e => .error e
      | .ok ((name, _), rest) =>
        match symbol '=' rest with
        | .error e => .error e
        | .ok (_, rest) =>
          match fieldNumber rest with
          | .error e => .error e
          | .ok (number, rest) =>
            match endOfMember rest with
            | .error e => .error e
            | .ok (_, rest) => .ok (⟨name, line, number, repeated, isMap, type⟩, rest)

/-- A label may be missing, so it takes one token or none. -/
theorem fieldLabel_length (ts : List Token) : (fieldLabel ts).2.length ≤ ts.length := by
  unfold fieldLabel
  repeat' split
  all_goals simp

/-- A number takes one token. -/
theorem intLiteral_advances (fault : Option Lexeme → Fault) : (intLiteral fault).Advances := by
  intro ts x rest h
  unfold intLiteral at h
  split at h <;> simp_all [refuse]

/-- The type of a map takes all up to the bracket that closes it. -/
theorem mapType_advances : mapType.Advances := by
  intro ts x rest h
  unfold mapType at h
  repeat' split at h
  all_goals grind [fullIdent_advances, symbol_advances, Parser.Advances]

/-- A type takes the word `map` or its own name. -/
theorem fieldType_advances : fieldType.Advances := by
  intro ts x rest h
  unfold fieldType at h
  repeat' split at h
  all_goals grind [fullIdent_advances, mapType_advances, Parser.Advances]

/-- The number of a field takes the equals sign too. -/
theorem fieldNumber_advances : fieldNumber.Advances := by
  intro ts x rest h
  unfold fieldNumber at h
  repeat' split at h
  all_goals grind [intLiteral_advances, Parser.Advances]

/-- A field takes its type at least, so a block of fields ends. -/
theorem field_advances : field.Advances := by
  intro ts x rest h
  unfold field at h
  have := fieldLabel_length ts
  repeat' split at h
  all_goals grind [fieldType_advances, ident_advances, symbol_advances, fieldNumber_advances,
    endOfMember_advances, Parser.Advances]

/-- The fields of a oneof, after the word that introduces it. -/
def oneof : Parser (List Field) := fun ts =>
  match blockHead ts with
  | .error e => .error e
  | .ok (_, rest) => block .unterminatedOneof ["option"] field field_advances rest

/-- A oneof takes its head and its block. -/
theorem oneof_advances : oneof.Advances := by
  intro ts x rest h
  unfold oneof at h
  split at h
  · simp at h
  · grind [blockHead_advances, block_advances, Parser.Advances]

/-! ## Enums -/

/-- The number of an enum value, after its equals sign: a 32-bit integer, perhaps behind a minus. -/
def enumNumber : Parser Int := fun ts =>
  let negative := startsWithSymbol ts '-'
  match intLiteral .expectedEnumValue (if negative then ts.drop 1 else ts) with
  | .error e => .error e
  | .ok ((spelling, line), rest) =>
    let magnitude : Int := intValue spelling
    let value := if negative then -magnitude else magnitude
    if magnitude ≥ 0x8000000000000000 then .error (.fault (some line) (.invalidEnumValue spelling))
    else if value < -0x80000000 || value ≥ 0x80000000 then
      .error (.fault (some line) (.enumValueOutOfRange value))
    else .ok (value, rest)

/-- A value of an enum, through its semicolon. -/
def enumValue : Parser EnumValue := fun ts =>
  match ident ts with
  | .error e => .error e
  | .ok ((name, _), rest) =>
    match symbol '=' rest with
    | .error e => .error e
    | .ok (_, rest) =>
      match enumNumber rest with
      | .error e => .error e
      | .ok (number, rest) =>
        match endOfMember rest with
        | .error e => .error e
        | .ok (_, rest) => .ok (⟨name, number⟩, rest)

/-- The number of a value takes a token more when it is negative. -/
theorem enumNumber_advances : enumNumber.Advances := by
  intro ts x rest h
  unfold enumNumber at h
  grind [intLiteral_advances, Parser.Advances]

/-- A value of an enum takes its name at least. -/
theorem enumValue_advances : enumValue.Advances := by
  intro ts x rest h
  unfold enumValue at h
  repeat' split at h
  all_goals grind [ident_advances, symbol_advances, enumNumber_advances, endOfMember_advances,
    Parser.Advances]

/-- An enum, after the word that introduces it. -/
def enum : Parser Enum := fun ts =>
  match blockHead ts with
  | .error e => .error e
  | .ok ((name, line), rest) =>
    match block (.unterminated .enum name) ["option", "reserved"] enumValue
        enumValue_advances rest with
    | .error e => .error e
    | .ok (values, rest) => .ok (⟨name, line, values⟩, rest)

/-- An enum takes its head and its block. -/
theorem enum_advances : enum.Advances := by
  intro ts x rest h
  unfold enum at h
  repeat' split at h
  all_goals grind [blockHead_advances, block_advances, Parser.Advances]

/-! ## Services -/

/-- The request or response type of a procedure, in parentheses: whether it is a stream, and the
message type. A lone word `stream` is a type name. -/
def rpcType : Parser (Bool × String) := fun ts =>
  match symbol '(' ts with
  | .error e => .error e
  | .ok (_, rest) =>
    let stream := startsWithWord rest "stream" && !startsWithSymbol (rest.drop 1) ')'
    match fullIdent (if stream then rest.drop 1 else rest) with
    | .error e => .error e
    | .ok (type, rest) =>
      match symbol ')' rest with
      | .error e => .error e
      | .ok (_, rest) => .ok ((stream, type), rest)

/-- What ends a procedure: a semicolon, or a block of options, which is passed over. -/
def rpcEnd (name : String) : Parser Unit := fun ts =>
  if startsWithSymbol ts ';' then .ok ((), ts.drop 1)
  else if startsWithSymbol ts '{' then
    match block (.unterminated .rpc name) [] (skipStatement 0) (skipStatement_advances 0)
        (ts.drop 1) with
    | .error e => .error e
    | .ok (_, rest) => .ok ((), rest)
  else refuse ts fun _ => .expectedRpcEnd name

/-- A procedure, after the word that introduces it. -/
def rpc : Parser Method := fun ts =>
  match ident ts with
  | .error e => .error e
  | .ok ((name, line), rest) =>
    match rpcType rest with
    | .error e => .error e
    | .ok ((clientStreaming, input), rest) =>
      if startsWithWord rest "returns" then
        match rpcType (rest.drop 1) with
        | .error e => .error e
        | .ok ((serverStreaming, output), rest) =>
          match rpcEnd name rest with
          | .error e => .error e
          | .ok (_, rest) =>
            .ok (⟨name, line, input, output, clientStreaming, serverStreaming⟩, rest)
      else refuse rest .expectedReturns

/-- A statement of a service that is not passed over: a procedure. -/
def serviceItem (service : String) : Parser Method
  | t :: rest =>
    if t.isWord "rpc" then rpc rest
    else .error (.fault (some t.line) (.unexpectedInService t.lexeme service))
  | [] => refuse [] fun _ => .unexpectedEnd

/-- A symbol at the front can be dropped. -/
theorem startsWithSymbol_drop {ts : List Token} {c : Char} (h : startsWithSymbol ts c = true) :
    (ts.drop 1).length < ts.length := by
  cases ts with
  | nil => simp [startsWithSymbol] at h
  | cons t rest => simp

/-- The type of a request or a response takes the brackets around it. -/
theorem rpcType_advances : rpcType.Advances := by
  intro ts x rest h
  unfold rpcType at h
  repeat' split at h
  all_goals grind [fullIdent_advances, symbol_advances, Parser.Advances]

/-- A procedure ends with a semicolon or with a block, and takes either. -/
theorem rpcEnd_advances (name : String) : (rpcEnd name).Advances := by
  intro ts x rest h
  unfold rpcEnd at h
  repeat' split at h
  all_goals grind [block_advances, Parser.Advances, startsWithSymbol_drop, refuse]

/-- A procedure takes its name at least. -/
theorem rpc_advances : rpc.Advances := by
  intro ts x rest h
  unfold rpc at h
  repeat' split at h
  all_goals grind [ident_advances, rpcType_advances, rpcEnd_advances, Parser.Advances, refuse]

/-- A member of a service takes a token, which is what `block` asks for. -/
theorem serviceItem_advances (service : String) : (serviceItem service).Advances := by
  intro ts x rest h
  unfold serviceItem at h
  repeat' split at h
  all_goals grind [rpc_advances, Parser.Advances, refuse]

/-- A service, after the word that introduces it. -/
def service : Parser Service := fun ts =>
  match blockHead ts with
  | .error e => .error e
  | .ok ((name, line), rest) =>
    match block (.unterminated .service name) ["option"] (serviceItem name)
        (serviceItem_advances name) rest with
    | .error e => .error e
    | .ok (methods, rest) => .ok (⟨name, line, methods⟩, rest)

/-- A service takes its head and its block. -/
theorem service_advances : service.Advances := by
  intro ts x rest h
  unfold service at h
  repeat' split at h
  all_goals grind [blockHead_advances, block_advances, Parser.Advances]

/-! ## Messages -/

/-- The words whose statements are passed over inside a message. -/
def passedInMessage : List String := ["option", "reserved", "extensions", "extend"]

/-- The rest of a message whose part so far is `top`, through its closing brace. The messages around
it that are still open stand in `outer`, innermost first; the outermost one is returned. -/
def messageBody (top : Message) (outer : List Message) (ts : List Token) :
    Except Refusal (Message × List Token) :=
  match ts with
  | [] => refuse [] fun _ => .unterminated .message top.name
  | t :: rest =>
    if t.isSymbol '}' then
      match outer with
      | [] => .ok (top, rest)
      | next :: outer => messageBody { next with messages := next.messages ++ [top] } outer rest
    else if t.isSymbol ';' then messageBody top outer rest
    else if t.isWord "message" then
      match h : blockHead rest with
      | .error e => .error e
      | .ok ((name, line), after) =>
        have := blockHead_advances h
        messageBody { name, line } (top :: outer) after
    else if t.isWord "enum" then
      match h : enum rest with
      | .error e => .error e
      | .ok (e, after) =>
        have := enum_advances h
        messageBody { top with enums := top.enums ++ [e] } outer after
    else if t.isWord "oneof" then
      match h : oneof rest with
      | .error e => .error e
      | .ok (fields, after) =>
        have := oneof_advances h
        messageBody { top with fields := top.fields ++ fields } outer after
    else if passedInMessage.any t.isWord then
      match h : skipStatement 0 (t :: rest) with
      | .error e => .error e
      | .ok (_, after) =>
        have := skipStatement_advances 0 h
        messageBody top outer after
    else
      match h : field (t :: rest) with
      | .error e => .error e
      | .ok (f, after) =>
        have := field_advances h
        messageBody { top with fields := top.fields ++ [f] } outer after
termination_by ts.length
decreasing_by all_goals simp_all only [List.length_cons] <;> omega

/-- A message, after the word that introduces it. -/
def message : Parser Message := fun ts =>
  match blockHead ts with
  | .error e => .error e
  | .ok ((name, line), rest) => messageBody { name, line } [] rest

/-- The body of a message takes the brace that closes the outermost message. The recursion is that
of `messageBody`, over the messages that are open. -/
theorem messageBody_advances (top : Message) (outer : List Message) :
    Parser.Advances (messageBody top outer) := by
  intro ts m rest h
  fun_induction messageBody top outer ts <;>
    grind [refuse, blockHead_advances, enum_advances, oneof_advances, skipStatement_advances,
      field_advances, Parser.Advances]

/-- A message takes its head and its body. -/
theorem message_advances : message.Advances := by
  intro ts x rest h
  unfold message at h
  split at h
  · simp at h
  · grind [blockHead_advances, messageBody_advances, Parser.Advances]

/-! ## Files -/

/-- An import statement as written: its path by value and the line of the path. -/
structure ImportSite where
  path : List UInt8
  line : Nat
  deriving Repr, DecidableEq, Inhabited

/-- The modifier of an import, if it has one: whether the import is public. -/
def importModifier (ts : List Token) : Bool × List Token :=
  match ts with
  | t :: rest =>
    if t.isWord "public" then (true, rest)
    else if t.isWord "weak" then (false, rest)
    else (false, ts)
  | [] => (false, ts)

/-- The path of an import and the semicolon after it. -/
def importPath : Parser ImportSite
  | ⟨.string path, line⟩ :: rest =>
    match symbol ';' rest with
    | .error e => .error e
    | .ok (_, rest) => .ok (⟨path, line⟩, rest)
  | ts => refuse ts .expectedImportPath

/-- An import statement, after the word that introduces it: the path and whether it is public. -/
def importStatement : Parser (ImportSite × Bool) := fun ts =>
  let (isPublic, rest) := importModifier ts
  match importPath rest with
  | .error e => .error e
  | .ok (site, rest) => .ok ((site, isPublic), rest)

/-- A package statement, after the word that introduces it. -/
def packageStatement : Parser String := fun ts =>
  match fullIdent ts with
  | .error e => .error e
  | .ok (name, rest) =>
    match symbol ';' rest with
    | .error e => .error e
    | .ok (_, rest) => .ok (name, rest)

/-- The word before the path of an import may be missing. -/
theorem importModifier_length (ts : List Token) : (importModifier ts).2.length ≤ ts.length := by
  unfold importModifier
  repeat' split
  all_goals simp

/-- The path of an import takes its semicolon too. -/
theorem importPath_advances : importPath.Advances := by
  intro ts x rest h
  unfold importPath at h
  repeat' split at h
  all_goals grind [symbol_advances, Parser.Advances, refuse]

/-- An import takes its path at least. -/
theorem importStatement_advances : importStatement.Advances := by
  intro ts x rest h
  unfold importStatement at h
  have := importModifier_length ts
  repeat' split at h
  all_goals grind [importPath_advances, Parser.Advances]

/-- A package statement takes its name at least. -/
theorem packageStatement_advances : packageStatement.Advances := by
  intro ts x rest h
  unfold packageStatement at h
  repeat' split at h
  all_goals grind [symbol_advances, fullIdent_advances, Parser.Advances]

/-- The words whose statements are passed over at the top of a file. -/
def passedInFile : List String := ["syntax", "edition", "option", "extend"]

/-- A file with the sites of its imports, in order. -/
structure Parsed where
  file : File
  sites : List ImportSite := []
  deriving Repr, DecidableEq, Inhabited

/-- The rest of a file whose part so far is `done`. -/
def fileBody (done : Parsed) (ts : List Token) : Except Refusal Parsed :=
  match ts with
  | [] => .ok done
  | t :: rest =>
    if t.isSymbol ';' then fileBody done rest
    else if passedInFile.any t.isWord then
      match h : skipStatement 0 (t :: rest) with
      | .error e => .error e
      | .ok (_, after) =>
        have := skipStatement_advances 0 h
        fileBody done after
    else if t.isWord "package" then
      match h : packageStatement rest with
      | .error e => .error e
      | .ok (package, after) =>
        have := packageStatement_advances h
        fileBody { done with file := { done.file with package } } after
    else if t.isWord "import" then
      match h : importStatement rest with
      | .error e => .error e
      | .ok ((site, isPublic), after) =>
        have := importStatement_advances h
        let imports := done.file.imports ++ [{ path := Text.textOf site.path, isPublic }]
        fileBody { file := { done.file with imports }, sites := done.sites ++ [site] } after
    else if t.isWord "message" then
      match h : message rest with
      | .error e => .error e
      | .ok (m, after) =>
        have := message_advances h
        fileBody { done with file := { done.file with messages := done.file.messages ++ [m] } }
          after
    else if t.isWord "enum" then
      match h : enum rest with
      | .error e => .error e
      | .ok (e, after) =>
        have := enum_advances h
        fileBody { done with file := { done.file with enums := done.file.enums ++ [e] } } after
    else if t.isWord "service" then
      match h : service rest with
      | .error e => .error e
      | .ok (s, after) =>
        have := service_advances h
        fileBody { done with file := { done.file with services := done.file.services ++ [s] } }
          after
    else refuse (t :: rest) fun _ => .unexpected t.lexeme
termination_by ts.length
decreasing_by all_goals simp_all only [List.length_cons] <;> omega

/-- The file at `path` with the tokens `ts`. -/
def parseFile (path : String) (ts : List Token) : Except Refusal Parsed :=
  fileBody { file := { path } } ts

end ProtoStub.Schema
