/-
**Configuration.**

The configuration switches the parts of a session on and off and says which comments mark regions.
It is changed by overrides, which are JSON values merged into the current configuration; an override
that leaves no configuration is refused.

Main definitions:

* `RegionConfig`, `Config`, `Config.standard` — the configuration;
* `Config.encode`, `Config.decode` — the configuration as JSON, and back;
* `Config.apply` — the configuration after an override.
-/

import SchemaScope.Json.Decode
import SchemaScope.Region

set_option autoImplicit false

namespace SchemaScope

/-! ### Rules for regions -/

namespace RegionRule

/-- A rule as JSON. -/
def encode (r : RegionRule) : Json :=
  .object [("beginRegex", .string r.opening), ("endRegex", .string r.closing)]

/-- The fields of a rule that have been read. -/
structure Draft where
  opening : Option String := none
  closing : Option String := none

/-- How a rule is read. -/
def format : RecordFormat Draft RegionRule where
  name := "RegionRule"
  fields := ["beginRegex", "endRegex"]
  tooMany := fewerElements
  start := {}
  read d key value :=
    if key = "beginRegex" then (Decode.text value).map fun t => { d with opening := some t }
    else if key = "endRegex" then (Decode.text value).map fun t => { d with closing := some t }
    else .ok d
  finish d := do
    let opening ← required "beginRegex" d.opening
    let closing ← required "endRegex" d.closing
    return ⟨opening, closing⟩

/-- Rules from JSON. -/
def decodeAll : Json → Except DecodeError (List RegionRule) := Decode.list format.decode

/-- Line comments that open with `region` or `#region`, and block comments that open with
`@Region`. -/
def standard : List RegionRule :=
  [⟨"(?i)^//\\s*#?region\\b\\s*(?P<name>.*)$", "(?i)^//\\s*#?endregion\\b"⟩,
    ⟨"(?i)^/\\*+\\s*@Region\\b\\s*(?P<name>.*?)\\s*\\*/$", "(?i)^/\\*+\\s*@EndRegion\\b"⟩]

end RegionRule

/-! ### Regions -/

/-- Whether regions are shown, and which comments mark them. -/
structure RegionConfig where
  enabled : Bool
  rules : List RegionRule
  deriving DecidableEq, Repr, Inhabited

namespace RegionConfig

/-- Regions are shown. -/
def standard : RegionConfig := ⟨true, RegionRule.standard⟩

/-- The configuration of regions as JSON. -/
def encode (c : RegionConfig) : Json :=
  .object [("enabled", .bool c.enabled), ("rules", .array (c.rules.map RegionRule.encode))]

/-- How the configuration of regions is read.  What is missing is as usual. -/
def format : RecordFormat RegionConfig RegionConfig where
  name := "RegionConfig"
  fields := ["enabled", "rules"]
  tooMany := fewerElements
  start := standard
  read c key value :=
    if key = "enabled" then (Decode.boolean value).map fun b => { c with enabled := b }
    else if key = "rules" then (RegionRule.decodeAll value).map fun rs => { c with rules := rs }
    else .ok c
  finish c := .ok c

end RegionConfig

/-! ### The configuration -/

/-- What a session does: stamp descriptors on saving, show the outline of the schema, annotate
constants, look up localizable strings, and show regions. -/
structure Config where
  descriptor : Bool
  schema : Bool
  highlight : Bool
  resource : Bool
  region : RegionConfig
  deriving DecidableEq, Repr, Inhabited

/-- An override that leaves no configuration. -/
structure ConfigError where
  cause : DecodeError
  deriving DecidableEq, Repr, Inhabited

/-- The wording of an error. -/
def ConfigError.message (e : ConfigError) : String := "Invalid configuration: " ++ e.cause.message

namespace Config

/-- Everything is on. -/
def standard : Config := ⟨true, true, true, true, RegionConfig.standard⟩

/-- The configuration as JSON. -/
def encode (c : Config) : Json :=
  .object [("descriptor", .bool c.descriptor), ("schema", .bool c.schema),
    ("highlight", .bool c.highlight), ("resource", .bool c.resource), ("region", c.region.encode)]

/-- How the configuration is read.  What is missing is as usual. -/
def format : RecordFormat Config Config where
  name := "Config"
  fields := ["descriptor", "schema", "highlight", "resource", "region"]
  tooMany := fewerElements
  start := standard
  read c key value :=
    if key = "descriptor" then (Decode.boolean value).map fun b => { c with descriptor := b }
    else if key = "schema" then (Decode.boolean value).map fun b => { c with schema := b }
    else if key = "highlight" then (Decode.boolean value).map fun b => { c with highlight := b }
    else if key = "resource" then (Decode.boolean value).map fun b => { c with resource := b }
    else if key = "region" then
      (RegionConfig.format.decode value).map fun r => { c with region := r }
    else .ok c
  finish c := .ok c

/-- The configuration from JSON. -/
def decode : Json → Except DecodeError Config := format.decode

/-- The configuration after an override. -/
def apply (c : Config) (overrides : Json) : Except ConfigError Config :=
  (decode (c.encode.merge overrides)).mapError ConfigError.mk

end Config

end SchemaScope
