/-!
# Kinds of syntax nodes

The closed vocabulary that the checks decide over. A kind is the grammatical role of a node; the
many grammar rules that play no role in a check are all `other`.
-/

namespace StraySemicolon

/-- The grammatical role of a syntax node. -/
inductive Kind where
  | compilationUnit
  | classDef
  | interfaceDef
  | enumDef
  | annotationDef
  | recordDef
  /-- The body of a type, braces included. -/
  | objBlock
  | fieldDef
  | annotationFieldDef
  | staticInit
  | instanceInit
  | ctorDef
  | compactCtorDef
  | methodDef
  | enumConstantDef
  /-- A `new` expression, with or without a class body. -/
  | literalNew
  | semi
  | lcurly
  | rcurly
  | comma
  /-- A block of statements. -/
  | slist
  /-- A semicolon between statements or between the declarations of a file. -/
  | emptyStat
  | other
deriving DecidableEq, Inhabited, Repr

namespace Kind

/-- All kinds, in the order of their numbers. -/
def all : List Kind :=
  [compilationUnit, classDef, interfaceDef, enumDef, annotationDef, recordDef, objBlock, fieldDef,
    annotationFieldDef, staticInit, instanceInit, ctorDef, compactCtorDef, methodDef,
    enumConstantDef, literalNew, semi, lcurly, rcurly, comma, slist, emptyStat, other]

/-- The written name of a kind. -/
def name : Kind → String
  | compilationUnit => "COMPILATION_UNIT"
  | classDef => "CLASS_DEF"
  | interfaceDef => "INTERFACE_DEF"
  | enumDef => "ENUM_DEF"
  | annotationDef => "ANNOTATION_DEF"
  | recordDef => "RECORD_DEF"
  | objBlock => "OBJBLOCK"
  | fieldDef => "FIELD_DEF"
  | annotationFieldDef => "ANNOTATION_FIELD_DEF"
  | staticInit => "STATIC_INIT"
  | instanceInit => "INSTANCE_INIT"
  | ctorDef => "CTOR_DEF"
  | compactCtorDef => "COMPACT_CTOR_DEF"
  | methodDef => "METHOD_DEF"
  | enumConstantDef => "ENUM_CONSTANT_DEF"
  | literalNew => "LITERAL_NEW"
  | semi => "SEMI"
  | lcurly => "LCURLY"
  | rcurly => "RCURLY"
  | comma => "COMMA"
  | slist => "SLIST"
  | emptyStat => "EMPTY_STAT"
  | other => "OTHER"

/-- The number of a kind, from 1. -/
def number (kind : Kind) : Nat :=
  all.idxOf kind + 1

/-- The kind of a written name. -/
def ofName? (text : String) : Option Kind :=
  all.find? fun kind => kind.name == text

/-- The five kinds of type declarations. -/
def isTypeDefinition : Kind → Bool
  | classDef | interfaceDef | enumDef | annotationDef | recordDef => true
  | _ => false

/-- The scopes at which the search for an enclosing enum ends without one. -/
def isEnumBarrier : Kind → Bool
  | classDef | interfaceDef | annotationDef | recordDef | literalNew => true
  | _ => false

/-- Members whose body closes them, so that nothing may follow but the next member. -/
def isSelfClosing : Kind → Bool
  | staticInit | instanceInit | ctorDef | compactCtorDef | methodDef => true
  | _ => false

/-- Declarations that end in a semicolon of their own. -/
def isTerminated : Kind → Bool
  | fieldDef | annotationFieldDef => true
  | _ => false

/-- The kind of a node of the given grammar rule below a node of the given kind. A semicolon and a
block take their kind from where they stand; the kind of every other node is that of its rule. -/
def ofType (type : String) (parent : Option Kind) : Kind :=
  match type with
  | ";" => if parent = some compilationUnit ∨ parent = some slist then emptyStat else semi
  | "block" => if parent = some objBlock then instanceInit else slist
  | "program" => compilationUnit
  | "class_declaration" => classDef
  | "interface_declaration" => interfaceDef
  | "enum_declaration" => enumDef
  | "annotation_type_declaration" => annotationDef
  | "record_declaration" => recordDef
  | "class_body" => objBlock
  | "interface_body" => objBlock
  | "enum_body" => objBlock
  | "annotation_type_body" => objBlock
  | "field_declaration" => fieldDef
  | "constant_declaration" => fieldDef
  | "annotation_type_element_declaration" => annotationFieldDef
  | "static_initializer" => staticInit
  | "constructor_declaration" => ctorDef
  | "compact_constructor_declaration" => compactCtorDef
  | "method_declaration" => methodDef
  | "enum_constant" => enumConstantDef
  | "object_creation_expression" => literalNew
  | "constructor_body" => slist
  | "\x7b" => lcurly
  | "\x7d" => rcurly
  | "," => comma
  | _ => other

end Kind

end StraySemicolon
