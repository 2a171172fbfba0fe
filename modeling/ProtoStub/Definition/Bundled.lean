import ProtoStub.Definition.Scope

/-!
# Bundled schema files

The schema files that come with the language and can be imported from anywhere: the well-known
types, the description of schemas by schemas, which also says what options there are, and the
protocol of compiler plugins. They have no lines.
-/

namespace ProtoStub.Definition.Bundled

/-- A field with a label. -/
def labelled (label : Label) (type name : String) (number : Int) : Field :=
  { name := ⟨name, 0⟩, line := 0, label := some ⟨label, 0⟩, type := ⟨type, 0⟩
    number := ⟨number, 0⟩ }

/-- A field that occurs at most once. -/
def one (type name : String) (number : Int) : Field := labelled .optional type name number

/-- A field that occurs any number of times. -/
def many (type name : String) (number : Int) : Field := labelled .repeated type name number

/-- A field that has to occur. -/
def must (type name : String) (number : Int) : Field := labelled .required type name number

/-- An enum by its values. -/
def choice (name : String) (values : List (String × Int)) : Enum :=
  { name := ⟨name, 0⟩, line := 0
    values := values.map fun (n, v) => { name := ⟨n, 0⟩, line := 0, number := ⟨v, 0⟩ } }

/-- An enum whose values count from zero. -/
def counted (name : String) (values : List String) : Enum :=
  choice name (values.zipIdx.map fun (n, i) => (n, i))

/-- A message by what is declared in it. -/
def record (name : String) (fields : List Field) (messages : List Message := [])
    (enums : List Enum := []) : Message :=
  { name := ⟨name, 0⟩, line := 0, fields, messages, enums }

/-- The message with the numbers from `first` to `last` open for extensions. -/
def extensible (first last : Int) (m : Message) : Message :=
  { m with extensionRanges := m.extensionRanges ++ [{ first, last, line := 0 }] }

/-- A bundled type. -/
def known (name : String) : String := ".google.protobuf." ++ name

/-- The field without a label that says that it occurs at most once. -/
def unlabelled (f : Field) : Field :=
  if f.label.map (·.value) == some .optional then { f with label := none } else f

/-- Messages whose fields occur at most once without a label that says so. -/
def withoutLabels : List Message → List Message
  | [] => []
  | m :: rest =>
    { m with fields := m.fields.map unlabelled, messages := withoutLabels m.messages } ::
      withoutLabels rest
termination_by ms => sizeOf ms
decreasing_by
  · exact m.sizeOf_messages_lt rest
  · decreasing_tactic

/-- A file of the bundled package. Fields of the newer version have no label unless they are
repeated. -/
def bundle (version : Version) (imports : List String) (messages : List Message)
    (enums : List Enum := []) (package : String := "google.protobuf") : File :=
  { version, package := ⟨package, 0⟩, enums
    messages := if version == .proto3 then withoutLabels messages else messages
    imports := imports.map fun path => ⟨"google/protobuf/" ++ path, false, 0, 0⟩ }

/-! ## Well-known types -/

/-- A message of one field `value`. -/
def wrapper (name type : String) : Message := record name [one type "value" 1]

/-- The message for the entries of a map from names to `type`. -/
def entry (name type : String) : Message :=
  { record name [one "string" "key" 1, one type "value" 2] with origin := .mapEntry }

/-- Values of any shape. -/
def structFile : File :=
  let inChoice (f : Field) : Field := { f with oneof := some 0 }
  bundle .proto3 []
    [record "Struct" [{ many (known "Struct.FieldsEntry") "fields" 1 with shape := .map }]
        [entry "FieldsEntry" (known "Value")],
      { record "Value"
          [inChoice (one (known "NullValue") "null_value" 1),
            inChoice (one "double" "number_value" 2), inChoice (one "string" "string_value" 3),
            inChoice (one "bool" "bool_value" 4),
            inChoice (one (known "Struct") "struct_value" 5),
            inChoice (one (known "ListValue") "list_value" 6)] with
        oneofs := [{ name := ⟨"kind", 0⟩ }] },
      record "ListValue" [many (known "Value") "values" 1]]
    [counted "NullValue" ["NULL_VALUE"]]

/-- The wrappers of scalar values. -/
def wrappersFile : File :=
  bundle .proto3 []
    [wrapper "DoubleValue" "double", wrapper "FloatValue" "float", wrapper "Int64Value" "int64",
      wrapper "UInt64Value" "uint64", wrapper "Int32Value" "int32", wrapper "UInt32Value" "uint32",
      wrapper "BoolValue" "bool", wrapper "StringValue" "string", wrapper "BytesValue" "bytes"]

/-- A message of seconds and nanoseconds. -/
def instant (name : String) : Message :=
  record name [one "int64" "seconds" 1, one "int32" "nanos" 2]

/-- Descriptions of types. -/
def typeFile : File :=
  bundle .proto3 ["any.proto", "source_context.proto"]
    [record "Type"
        [one "string" "name" 1, many (known "Field") "fields" 2, many "string" "oneofs" 3,
          many (known "Option") "options" 4, one (known "SourceContext") "source_context" 5,
          one (known "Syntax") "syntax" 6, one "string" "edition" 7],
      record "Field"
        [one (known "Field.Kind") "kind" 1, one (known "Field.Cardinality") "cardinality" 2,
          one "int32" "number" 3, one "string" "name" 4, one "string" "type_url" 6,
          one "int32" "oneof_index" 7, one "bool" "packed" 8, many (known "Option") "options" 9,
          one "string" "json_name" 10, one "string" "default_value" 11] []
        [counted "Kind" ["TYPE_UNKNOWN", "TYPE_DOUBLE", "TYPE_FLOAT", "TYPE_INT64", "TYPE_UINT64",
            "TYPE_INT32", "TYPE_FIXED64", "TYPE_FIXED32", "TYPE_BOOL", "TYPE_STRING", "TYPE_GROUP",
            "TYPE_MESSAGE", "TYPE_BYTES", "TYPE_UINT32", "TYPE_ENUM", "TYPE_SFIXED32",
            "TYPE_SFIXED64", "TYPE_SINT32", "TYPE_SINT64"],
          counted "Cardinality" ["CARDINALITY_UNKNOWN", "CARDINALITY_OPTIONAL",
            "CARDINALITY_REQUIRED", "CARDINALITY_REPEATED"]],
      record "Enum"
        [one "string" "name" 1, many (known "EnumValue") "enumvalue" 2,
          many (known "Option") "options" 3, one (known "SourceContext") "source_context" 4,
          one (known "Syntax") "syntax" 5, one "string" "edition" 6],
      record "EnumValue"
        [one "string" "name" 1, one "int32" "number" 2, many (known "Option") "options" 3],
      record "Option" [one "string" "name" 1, one (known "Any") "value" 2]]
    [counted "Syntax" ["SYNTAX_PROTO2", "SYNTAX_PROTO3", "SYNTAX_EDITIONS"]]

/-- Descriptions of services. -/
def apiFile : File :=
  bundle .proto3 ["source_context.proto", "type.proto"]
    [record "Api"
        [one "string" "name" 1, many (known "Method") "methods" 2,
          many (known "Option") "options" 3, one "string" "version" 4,
          one (known "SourceContext") "source_context" 5,
          many (known "Mixin") "mixins" 6, one (known "Syntax") "syntax" 7],
      record "Method"
        [one "string" "name" 1, one "string" "request_type_url" 2, one "bool" "request_streaming" 3,
          one "string" "response_type_url" 4, one "bool" "response_streaming" 5,
          many (known "Option") "options" 6, one (known "Syntax") "syntax" 7],
      record "Mixin" [one "string" "name" 1, one "string" "root" 2]]

/-! ## Schemas described by schemas -/

/-- The numbers that options leave open for extensions. -/
def openOptions (m : Message) : Message :=
  extensible 1000 0x1FFFFFFF
    { m with fields := m.fields ++ [many (known "UninterpretedOption") "uninterpreted_option" 999] }

/-- What fields can be set to. -/
def fieldOptions : Message :=
  openOptions (record "FieldOptions"
    [one (known "FieldOptions.CType") "ctype" 1, one "bool" "packed" 2,
      one (known "FieldOptions.JSType") "jstype" 6, one "bool" "lazy" 5,
      one "bool" "unverified_lazy" 15, one "bool" "deprecated" 3, one "bool" "weak" 10,
      one "bool" "debug_redact" 16, one (known "FieldOptions.OptionRetention") "retention" 17,
      many (known "FieldOptions.OptionTargetType") "targets" 19,
      many (known "FieldOptions.EditionDefault") "edition_defaults" 20,
      one (known "FeatureSet") "features" 21,
      one (known "FieldOptions.FeatureSupport") "feature_support" 22]
    [record "EditionDefault" [one (known "Edition") "edition" 3, one "string" "value" 2],
      record "FeatureSupport"
        [one (known "Edition") "edition_introduced" 1, one (known "Edition") "edition_deprecated" 2,
          one "string" "deprecation_warning" 3, one (known "Edition") "edition_removed" 4]]
    [counted "CType" ["STRING", "CORD", "STRING_PIECE"],
      counted "JSType" ["JS_NORMAL", "JS_STRING", "JS_NUMBER"],
      counted "OptionRetention" ["RETENTION_UNKNOWN", "RETENTION_RUNTIME", "RETENTION_SOURCE"],
      counted "OptionTargetType" ["TARGET_TYPE_UNKNOWN", "TARGET_TYPE_FILE",
        "TARGET_TYPE_EXTENSION_RANGE", "TARGET_TYPE_MESSAGE", "TARGET_TYPE_FIELD",
        "TARGET_TYPE_ONEOF", "TARGET_TYPE_ENUM", "TARGET_TYPE_ENUM_ENTRY", "TARGET_TYPE_SERVICE",
        "TARGET_TYPE_METHOD"]])

/-- What files can be set to. -/
def fileOptions : Message :=
  openOptions (record "FileOptions"
    [one "string" "java_package" 1, one "string" "java_outer_classname" 8,
      one "bool" "java_multiple_files" 10, one "bool" "java_generate_equals_and_hash" 20,
      one "bool" "java_string_check_utf8" 27,
      one (known "FileOptions.OptimizeMode") "optimize_for" 9, one "string" "go_package" 11,
      one "bool" "cc_generic_services" 16,
      one "bool" "java_generic_services" 17, one "bool" "py_generic_services" 18,
      one "bool" "deprecated" 23, one "bool" "cc_enable_arenas" 31,
      one "string" "objc_class_prefix" 36, one "string" "csharp_namespace" 37,
      one "string" "swift_prefix" 39, one "string" "php_class_prefix" 40,
      one "string" "php_namespace" 41, one "string" "php_metadata_namespace" 44,
      one "string" "ruby_package" 45, one (known "FeatureSet") "features" 50] []
    [choice "OptimizeMode" [("SPEED", 1), ("CODE_SIZE", 2), ("LITE_RUNTIME", 3)]])

/-- The other kinds of options. -/
def otherOptions : List Message :=
  [openOptions (record "MessageOptions"
      [one "bool" "message_set_wire_format" 1, one "bool" "no_standard_descriptor_accessor" 2,
        one "bool" "deprecated" 3, one "bool" "map_entry" 7,
        one "bool" "deprecated_legacy_json_field_conflicts" 11,
        one (known "FeatureSet") "features" 12]),
    openOptions (record "OneofOptions" [one (known "FeatureSet") "features" 1]),
    openOptions (record "EnumOptions"
      [one "bool" "allow_alias" 2, one "bool" "deprecated" 3,
        one "bool" "deprecated_legacy_json_field_conflicts" 6,
        one (known "FeatureSet") "features" 7]),
    openOptions (record "EnumValueOptions"
      [one "bool" "deprecated" 1, one (known "FeatureSet") "features" 2,
        one "bool" "debug_redact" 3,
        one (known "FieldOptions.FeatureSupport") "feature_support" 4]),
    openOptions (record "ServiceOptions"
      [one (known "FeatureSet") "features" 34, one "bool" "deprecated" 33]),
    openOptions (record "MethodOptions"
      [one "bool" "deprecated" 33,
        one (known "MethodOptions.IdempotencyLevel") "idempotency_level" 34,
        one (known "FeatureSet") "features" 35] []
      [counted "IdempotencyLevel" ["IDEMPOTENCY_UNKNOWN", "NO_SIDE_EFFECTS", "IDEMPOTENT"]]),
    openOptions (record "ExtensionRangeOptions"
      [many (known "ExtensionRangeOptions.Declaration") "declaration" 2,
        one (known "FeatureSet") "features" 50,
        one (known "ExtensionRangeOptions.VerificationState") "verification" 3]
      [record "Declaration"
        [one "int32" "number" 1, one "string" "full_name" 2, one "string" "type" 3,
          one "bool" "reserved" 5, one "bool" "repeated" 6]]
      [counted "VerificationState" ["DECLARATION", "UNVERIFIED"]])]

/-- The features of a file, and their defaults. -/
def features : List Message :=
  let feature (type name : String) (n : Int) : Field := one (known ("FeatureSet." ++ type)) name n
  [extensible 1000 10000 (record "FeatureSet"
      [feature "FieldPresence" "field_presence" 1, feature "EnumType" "enum_type" 2,
        feature "RepeatedFieldEncoding" "repeated_field_encoding" 3,
        feature "Utf8Validation" "utf8_validation" 4,
        feature "MessageEncoding" "message_encoding" 5, feature "JsonFormat" "json_format" 6] []
      [counted "FieldPresence"
          ["FIELD_PRESENCE_UNKNOWN", "EXPLICIT", "IMPLICIT", "LEGACY_REQUIRED"],
        counted "EnumType" ["ENUM_TYPE_UNKNOWN", "OPEN", "CLOSED"],
        counted "RepeatedFieldEncoding" ["REPEATED_FIELD_ENCODING_UNKNOWN", "PACKED", "EXPANDED"],
        choice "Utf8Validation" [("UTF8_VALIDATION_UNKNOWN", 0), ("VERIFY", 2), ("NONE", 3)],
        counted "MessageEncoding" ["MESSAGE_ENCODING_UNKNOWN", "LENGTH_PREFIXED", "DELIMITED"],
        counted "JsonFormat" ["JSON_FORMAT_UNKNOWN", "ALLOW", "LEGACY_BEST_EFFORT"]]),
    record "FeatureSetDefaults"
      [many (known "FeatureSetDefaults.FeatureSetEditionDefault") "defaults" 1,
        one (known "Edition") "minimum_edition" 4, one (known "Edition") "maximum_edition" 5]
      [record "FeatureSetEditionDefault"
        [one (known "Edition") "edition" 3, one (known "FeatureSet") "overridable_features" 4,
          one (known "FeatureSet") "fixed_features" 5]]]

/-- The parts of a schema file. -/
def schemaParts : List Message :=
  [extensible 536000000 536000000
      (record "FileDescriptorSet" [many (known "FileDescriptorProto") "file" 1]),
    record "FileDescriptorProto"
      [one "string" "name" 1, one "string" "package" 2, many "string" "dependency" 3,
        many "int32" "public_dependency" 10, many "int32" "weak_dependency" 11,
        many (known "DescriptorProto") "message_type" 4,
        many (known "EnumDescriptorProto") "enum_type" 5,
        many (known "ServiceDescriptorProto") "service" 6,
        many (known "FieldDescriptorProto") "extension" 7, one (known "FileOptions") "options" 8,
        one (known "SourceCodeInfo") "source_code_info" 9, one "string" "syntax" 12,
        one (known "Edition") "edition" 14],
    record "DescriptorProto"
      [one "string" "name" 1, many (known "FieldDescriptorProto") "field" 2,
        many (known "FieldDescriptorProto") "extension" 6,
        many (known "DescriptorProto") "nested_type" 3,
        many (known "EnumDescriptorProto") "enum_type" 4,
        many (known "DescriptorProto.ExtensionRange") "extension_range" 5,
        many (known "OneofDescriptorProto") "oneof_decl" 8,
        one (known "MessageOptions") "options" 7,
        many (known "DescriptorProto.ReservedRange") "reserved_range" 9,
        many "string" "reserved_name" 10]
      [record "ExtensionRange"
          [one "int32" "start" 1, one "int32" "end" 2,
            one (known "ExtensionRangeOptions") "options" 3],
        record "ReservedRange" [one "int32" "start" 1, one "int32" "end" 2]],
    record "FieldDescriptorProto"
      [one "string" "name" 1, one "int32" "number" 3,
        one (known "FieldDescriptorProto.Label") "label" 4,
        one (known "FieldDescriptorProto.Type") "type" 5, one "string" "type_name" 6,
        one "string" "extendee" 2, one "string" "default_value" 7, one "int32" "oneof_index" 9,
        one "string" "json_name" 10, one (known "FieldOptions") "options" 8,
        one "bool" "proto3_optional" 17] []
      [choice "Type" (["TYPE_DOUBLE", "TYPE_FLOAT", "TYPE_INT64", "TYPE_UINT64", "TYPE_INT32",
          "TYPE_FIXED64", "TYPE_FIXED32", "TYPE_BOOL", "TYPE_STRING", "TYPE_GROUP", "TYPE_MESSAGE",
          "TYPE_BYTES", "TYPE_UINT32", "TYPE_ENUM", "TYPE_SFIXED32", "TYPE_SFIXED64", "TYPE_SINT32",
          "TYPE_SINT64"].zipIdx.map fun (n, i) => (n, i + 1)),
        choice "Label" [("LABEL_OPTIONAL", 1), ("LABEL_REPEATED", 3), ("LABEL_REQUIRED", 2)]],
    record "OneofDescriptorProto" [one "string" "name" 1, one (known "OneofOptions") "options" 2],
    record "EnumDescriptorProto"
      [one "string" "name" 1, many (known "EnumValueDescriptorProto") "value" 2,
        one (known "EnumOptions") "options" 3,
        many (known "EnumDescriptorProto.EnumReservedRange") "reserved_range" 4,
        many "string" "reserved_name" 5]
      [record "EnumReservedRange" [one "int32" "start" 1, one "int32" "end" 2]],
    record "EnumValueDescriptorProto"
      [one "string" "name" 1, one "int32" "number" 2, one (known "EnumValueOptions") "options" 3],
    record "ServiceDescriptorProto"
      [one "string" "name" 1, many (known "MethodDescriptorProto") "method" 2,
        one (known "ServiceOptions") "options" 3],
    record "MethodDescriptorProto"
      [one "string" "name" 1, one "string" "input_type" 2, one "string" "output_type" 3,
        one (known "MethodOptions") "options" 4, one "bool" "client_streaming" 5,
        one "bool" "server_streaming" 6],
    record "UninterpretedOption"
      [many (known "UninterpretedOption.NamePart") "name" 2, one "string" "identifier_value" 3,
        one "uint64" "positive_int_value" 4, one "int64" "negative_int_value" 5,
        one "double" "double_value" 6, one "bytes" "string_value" 7,
        one "string" "aggregate_value" 8]
      [record "NamePart" [must "string" "name_part" 1, must "bool" "is_extension" 2]],
    record "SourceCodeInfo" [many (known "SourceCodeInfo.Location") "location" 1]
      [record "Location"
        [many "int32" "path" 1, many "int32" "span" 2, one "string" "leading_comments" 3,
          one "string" "trailing_comments" 4, many "string" "leading_detached_comments" 6]],
    record "GeneratedCodeInfo" [many (known "GeneratedCodeInfo.Annotation") "annotation" 1]
      [record "Annotation"
        [many "int32" "path" 1, one "string" "source_file" 2, one "int32" "begin" 3,
          one "int32" "end" 4, one (known "GeneratedCodeInfo.Annotation.Semantic") "semantic" 5] []
        [counted "Semantic" ["NONE", "SET", "ALIAS"]]]]

/-- Schemas described by schemas. -/
def descriptorFile : File :=
  bundle .proto2 [] (schemaParts ++ fileOptions :: fieldOptions :: otherOptions ++ features)
    [choice "Edition" [("EDITION_UNKNOWN", 0), ("EDITION_LEGACY", 900), ("EDITION_PROTO2", 998),
      ("EDITION_PROTO3", 999), ("EDITION_2023", 1000), ("EDITION_2024", 1001),
      ("EDITION_1_TEST_ONLY", 1), ("EDITION_2_TEST_ONLY", 2), ("EDITION_99997_TEST_ONLY", 99997),
      ("EDITION_99998_TEST_ONLY", 99998), ("EDITION_99999_TEST_ONLY", 99999),
      ("EDITION_MAX", 0x7FFFFFFF)]]

/-- The protocol between a compiler and its plugins. -/
def pluginFile : File :=
  let own (name : String) : String := ".google.protobuf.compiler." ++ name
  bundle .proto2 ["descriptor.proto"]
    [record "Version"
        [one "int32" "major" 1, one "int32" "minor" 2, one "int32" "patch" 3,
          one "string" "suffix" 4],
      record "CodeGeneratorRequest"
        [many "string" "file_to_generate" 1, one "string" "parameter" 2,
          many (known "FileDescriptorProto") "proto_file" 15,
          many (known "FileDescriptorProto") "source_file_descriptors" 17,
          one (own "Version") "compiler_version" 3],
      record "CodeGeneratorResponse"
        [one "string" "error" 1, one "uint64" "supported_features" 2,
          one "int32" "minimum_edition" 3, one "int32" "maximum_edition" 4,
          many (own "CodeGeneratorResponse.File") "file" 15]
        [record "File"
          [one "string" "name" 1, one "string" "insertion_point" 2, one "string" "content" 15,
            one (known "GeneratedCodeInfo") "generated_code_info" 16]]
        [counted "Feature"
          ["FEATURE_NONE", "FEATURE_PROTO3_OPTIONAL", "FEATURE_SUPPORTS_EDITIONS"]]]
    [] "google.protobuf.compiler"

/-- The bundled files under their names. -/
def files : List (String × File) :=
  [("any.proto",
      bundle .proto3 [] [record "Any" [one "string" "type_url" 1, one "bytes" "value" 2]]),
    ("api.proto", apiFile),
    ("compiler/plugin.proto", pluginFile),
    ("descriptor.proto", descriptorFile),
    ("duration.proto", bundle .proto3 [] [instant "Duration"]),
    ("empty.proto", bundle .proto3 [] [record "Empty" []]),
    ("field_mask.proto", bundle .proto3 [] [record "FieldMask" [many "string" "paths" 1]]),
    ("source_context.proto",
      bundle .proto3 [] [record "SourceContext" [one "string" "file_name" 1]]),
    ("struct.proto", structFile),
    ("timestamp.proto", bundle .proto3 [] [instant "Timestamp"]),
    ("type.proto", typeFile),
    ("wrappers.proto", wrappersFile)]

/-- The bundled file at a path, with its symbols. -/
def find? (path : String) : Option Linked :=
  (files.find? fun (name, _) => "google/protobuf/" ++ name == path).map fun (_, f) =>
    Linked.ofFile path f

/-- The description of schemas. -/
def schema : Linked := Linked.ofFile "google/protobuf/descriptor.proto" descriptorFile

end ProtoStub.Definition.Bundled
