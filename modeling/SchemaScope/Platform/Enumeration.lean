/-
**Enumerations of the platform.**

Pages refer to the members of fixed enumerations by number or by name.  A member is found by its
value or by its name, and where two members share one, the one declared first is meant.

Main definitions:

* `Enumeration`, `Enumeration.nameOf?`, `Enumeration.valueOf?` — a named list of members;
* `dataValueType`, `viewItemType`, … — the enumerations themselves;
* `Completion`, `completionsOf`, `completions` — the members offered while a name is being typed;
* `unknown` — what is shown where a value cannot be resolved.
-/

set_option autoImplicit false

namespace SchemaScope.Platform

/-- What is shown where a value cannot be resolved. -/
def unknown : String := "¯\\_(ツ)_/¯"

/-- A named list of members with their values, in the order of declaration. -/
structure Enumeration where
  name : String
  members : List (String × Int)
  deriving DecidableEq, Repr, Inhabited

namespace Enumeration

/-- The name of the first member with the given value. -/
def nameOf? (e : Enumeration) (value : Int) : Option String :=
  (e.members.find? fun m => m.2 == value).map Prod.fst

/-- The value of the first member with the given name. -/
def valueOf? (e : Enumeration) (name : String) : Option Int :=
  (e.members.find? fun m => m.1 == name).map Prod.snd

/-- The names of all members. -/
def memberNames (e : Enumeration) : List String := e.members.map Prod.fst

end Enumeration

/-! ### The enumerations -/

/-- The types of data that an attribute can hold. -/
def dataValueType : Enumeration :=
  ⟨"DataValueType",
    [("GUID", 0), ("TEXT", 1), ("INTEGER", 4), ("FLOAT", 5), ("MONEY", 6), ("DATE_TIME", 7),
      ("DATE", 8), ("TIME", 9), ("LOOKUP", 10), ("ENUM", 11), ("BOOLEAN", 12), ("BLOB", 13),
      ("IMAGE", 14), ("CUSTOM_OBJECT", 15), ("IMAGELOOKUP", 16), ("COLLECTION", 17),
      ("COLOR", 18), ("LOCALIZABLE_STRING", 19), ("ENTITY", 20), ("ENTITY_COLLECTION", 21),
      ("ENTITY_COLUMN_MAPPING_COLLECTION", 22), ("HASH_TEXT", 23), ("SECURE_TEXT", 24),
      ("FILE", 25), ("MAPPING", 26), ("SHORT_TEXT", 27), ("MEDIUM_TEXT", 28),
      ("MAXSIZE_TEXT", 29), ("LONG_TEXT", 30), ("FLOAT1", 31), ("FLOAT2", 32), ("FLOAT3", 33),
      ("FLOAT4", 34), ("LOCALIZABLE_PARAMETER_VALUES_LIST", 35), ("METADATA_TEXT", 36),
      ("STAGE_INDICATOR", 37), ("OBJECT_LIST", 38), ("COMPOSITE_OBJECT_LIST", 39),
      ("FLOAT8", 40)]⟩

/-- The ways in which a filter compares two values. -/
def comparisonType : Enumeration :=
  ⟨"ComparisonType",
    [("BETWEEN", 0), ("IS_NULL", 1), ("IS_NOT_NULL", 2), ("EQUAL", 3), ("NOT_EQUAL", 4),
      ("LESS", 5), ("LESS_OR_EQUAL", 6), ("GREATER", 7), ("GREATER_OR_EQUAL", 8),
      ("START_WITH", 9), ("NOT_START_WITH", 10), ("CONTAIN", 11), ("NOT_CONTAIN", 12),
      ("END_WITH", 13), ("NOT_END_WITH", 14), ("EXISTS", 15), ("NOT_EXISTS", 16)]⟩

/-- The kinds of element on a page. -/
def viewItemType : Enumeration :=
  ⟨"ViewItemType",
    [("GRID_LAYOUT", 0), ("TAB_PANEL", 1), ("DETAIL", 2), ("MODEL_ITEM", 3), ("MODULE", 4),
      ("BUTTON", 5), ("LABEL", 6), ("CONTAINER", 7), ("MENU", 8), ("MENU_ITEM", 9),
      ("MENU_SEPARATOR", 10), ("SECTION_VIEWS", 11), ("SECTION_VIEW", 12), ("GRID", 13),
      ("SCHEDULE_EDIT", 14), ("CONTROL_GROUP", 15), ("RADIO_GROUP", 16), ("DESIGN_VIEW", 17),
      ("COLOR_BUTTON", 18), ("IMAGE_TAB_PANEL", 19), ("HYPERLINK", 20),
      ("INFORMATION_BUTTON", 21), ("TIP", 22), ("COMPONENT", 23), ("TIP_LABEL", 24),
      ("PROGRESS_BAR", 30), ("GRID_LAYOUT_EDIT", 31), ("IFRAMECONTROL", 32),
      ("EXTERNAL_WIDGET", 33)]⟩

/-- The origins of a column of a view model. -/
def viewModelColumnType : Enumeration :=
  ⟨"ViewModelColumnType",
    [("ENTITY_COLUMN", 0), ("CALCULATED_COLUMN", 1), ("VIRTUAL_COLUMN", 2),
      ("RESOURCE_COLUMN", 3)]⟩

/-- The kinds of editor for a value. -/
def contentType : Enumeration :=
  ⟨"ContentType",
    [("LONG_TEXT", 0), ("SHORT_TEXT", 1), ("DATE_TIME", 2), ("ENUM", 3), ("RICH_TEXT", 4),
      ("LOOKUP", 5), ("SEARCHABLE_TEXT", 6)]⟩

/-- The ways in which filters are joined. -/
def logicalOperatorType : Enumeration :=
  ⟨"LogicalOperatorType",
    [("AND", 0), ("OR", 1)]⟩

/-- The properties of a field that a business rule can set. -/
def ruleProperty : Enumeration :=
  ⟨"Property",
    [("VISIBLE", 0), ("ENABLED", 1), ("REQUIRED", 2), ("READONLY", 3)]⟩

/-- The kinds of business rule. -/
def ruleType : Enumeration :=
  ⟨"RuleType",
    [("DISABLED", -1), ("BINDPARAMETER", 0), ("FILTRATION", 1), ("AUTOCOMPLETE", 2),
      ("POPULATE_ATTRIBUTE", 3)]⟩

/-- The origins of the value that a filtering rule compares with. -/
def ruleValueType : Enumeration :=
  ⟨"ValueType",
    [("CONSTANT", 0), ("ATTRIBUTE", 1), ("SYSSETTING", 2), ("SYSVALUE", 3), ("CARDSTATE", 4),
      ("PARAMETER", 5)]⟩

/-- All enumerations. -/
def enumerations : List Enumeration :=
  [dataValueType, comparisonType, viewItemType, viewModelColumnType, contentType,
    logicalOperatorType, ruleProperty, ruleType, ruleValueType]

/-! ### Completion -/

/-- A member that is offered for completion. -/
structure Completion where
  label : String
  value : Int
  enumeration : String
  deriving DecidableEq, Repr, Inhabited

/-- The namespace in which scripts find the enumerations. -/
def scriptNamespace : String := "Terrasoft"

/-- The text after which the members of an enumeration are offered. -/
def trigger (e : Enumeration) : String := scriptNamespace ++ "." ++ e.name ++ "."

/-- The members of an enumeration, if the text before the cursor ends with its trigger. -/
def completionsOf (e : Enumeration) (typed : String) : List Completion :=
  if (trigger e).toList.isSuffixOf typed.toList then
    e.members.map fun (label, value) => ⟨label, value, e.name⟩
  else []

/-- The enumerations whose members are offered. -/
def completed : List Enumeration :=
  [dataValueType, comparisonType, viewItemType, viewModelColumnType]

/-- The members offered for the text before the cursor. -/
def completions (typed : String) : List Completion := completed.flatMap (completionsOf · typed)

end SchemaScope.Platform
