/-
**Configurations field by field.**

An override reaches a configuration by a detour: the configuration is written as JSON, the override
is merged into it, and a configuration is read from what comes out.  What it does can be said without
the detour.  Each field that the override gives a value takes this value, a `null` gives none, and
the other fields stay as they are.  The override is refused exactly if it gives some field a value
that the field cannot take; then a session keeps everything as it was.

The reason is that a configuration as JSON has all its fields, in the order in which they are read.
An override changes their values in place and adds other members behind them, and these are passed
over when a record is read.

Main definitions:

* `RecordFormat.Ignores` — a format passes over members that are none of its fields;
* `Config.Takes` — a field after an override;
* `Config.Admits` — an override gives a field nothing or something that it can take;
* `Config.regionMembers` — what an override says about regions.

Main results:

* `RecordFormat.decode_merge` — a record that is overridden is read from its fields;
* `Config.apply_eq_ok_iff` — **what an override makes of a configuration**;
* `Config.apply_field_by_field` — **when an override is accepted, and what it does to a session**.
-/

import SchemaScope.Proofs.Json.Merging
import SchemaScope.World

set_option autoImplicit false

namespace SchemaScope

open Members

/-! ### Records that are overridden -/

namespace RecordFormat

variable {δ α : Type}

/-- Members that are none of the fields are passed over. -/
def Ignores (f : RecordFormat δ α) : Prop :=
  ∀ draft key value, key ∉ f.fields → f.read draft key value = .ok draft

theorem readAll_append {f : RecordFormat δ α} (hf : f.Ignores) (members : Members)
    {others : Members} (h : ∀ m ∈ others, m.1 ∉ f.fields) :
    f.readAll (members ++ others) = f.readAll members := by
  have hothers : ∀ draft, others.foldlM (fun d m => f.read d m.1 m.2) draft = .ok draft := by
    intro draft
    induction others with
    | nil => rfl
    | cons m others ih =>
        rw [List.foldlM_cons, hf draft m.1 m.2 (h m List.mem_cons_self)]
        exact ih fun x hx => h x (List.mem_cons_of_mem m hx)
  rw [readAll, readAll, List.foldlM_append]
  cases members.foldlM (fun d m => f.read d m.1 m.2) f.start with
  | error e => rfl
  | ok draft => exact hothers draft

/-- A record with all its fields is read from them after an override, whatever else this adds. -/
theorem decode_merge {f : RecordFormat δ α} (hf : f.Ignores) {ms os : Members}
    (hfields : ms.keys = f.fields) (hnodup : f.fields.Nodup) (hos : os.keys.Nodup) :
    f.decode ((Json.object ms).merge (.object os)) = f.ofMembers (ms.map (overridden os)) := by
  have hms : ms.keys.Nodup := hfields ▸ hnodup
  have hadded : ∀ m ∈ added ms os, m.1 ∉ f.fields := by
    intro m hm
    rw [← hfields]
    exact (mem_added_iff.1 hm).2.1
  rw [Json.merge_object, decode, ofMembers, ofMembers, Json.mergeMembers_eq hms hos,
    readAll_append hf _ hadded]

end RecordFormat

/-! ### Fields -/

/-- A list is read by reading its elements. -/
theorem mapM_eq_ok_iff {ε α β : Type} (f : α → Except ε β) (xs : List α) (ys : List β) :
    xs.mapM f = .ok ys ↔ List.Forall₂ (fun x y => f x = .ok y) xs ys := by
  induction xs generalizing ys with
  | nil =>
      rw [List.mapM_nil, List.forall₂_nil_left_iff]
      exact ⟨fun h => (Except.ok.inj h).symm, fun h => h ▸ rfl⟩
  | cons x xs ih =>
      rw [List.mapM_cons, List.forall₂_cons_left_iff]
      constructor
      · intro h
        obtain ⟨y, hy, h⟩ := Json.exists_of_bind_ok h
        obtain ⟨rest, hrest, h⟩ := Json.exists_of_bind_ok h
        exact ⟨y, rest, hy, (ih rest).1 hrest, (Except.ok.inj h).symm⟩
      · rintro ⟨y, rest, hy, hrest, rfl⟩
        rw [hy, (ih rest).2 hrest]
        rfl

namespace Config

/-- A field with the value `base` after an override that gives it `given`: as it was if nothing or
`null` is given, and otherwise what is given. -/
inductive Takes {α : Type} (reads : Json → α → Prop) (base : α) : Option Json → α → Prop
  | absent : Takes reads base none base
  | null : Takes reads base (some .null) base
  | given {v : Json} {a : α} : v ≠ .null → reads v a → Takes reads base (some v) a

/-- An override gives a field nothing, `null`, or something that it can take. -/
def Admits (valid : Json → Prop) (given : Option Json) : Prop :=
  given = none ∨ given = some .null ∨ ∃ v, given = some v ∧ valid v

theorem exists_takes_iff {α : Type} {reads : Json → α → Prop} {base : α} {given : Option Json} :
    (∃ a, Takes reads base given a) ↔ Admits (fun v => ∃ a, reads v a) given := by
  constructor
  · rintro ⟨a, h⟩
    cases h with
    | absent => exact .inl rfl
    | null => exact .inr (.inl rfl)
    | given _ ha => exact .inr (.inr ⟨_, rfl, a, ha⟩)
  · rintro (rfl | rfl | ⟨v, rfl, a, ha⟩)
    · exact ⟨base, .absent⟩
    · exact ⟨base, .null⟩
    · by_cases hv : v = .null
      · exact ⟨base, hv ▸ .null⟩
      · exact ⟨a, .given hv ha⟩

/-- What is read from a field that was written as `e` and then overridden. -/
theorem read_overridden_iff {ε α : Type} {read : Json → Except ε α} {reads : Json → α → Prop}
    (hreads : ∀ v a, read v = .ok a ↔ reads v a) {e : Json} (he : ∀ ms, e ≠ .object ms) {base : α}
    (hbase : read e = .ok base) (given : Option Json) (a : α) :
    read (given.elim e e.merge) = .ok a ↔ Takes reads base given a := by
  have hkept : read e = .ok a ↔ a = base := by
    rw [hbase]
    exact ⟨fun h => (Except.ok.inj h).symm, fun h => h ▸ rfl⟩
  cases given with
  | none =>
      refine hkept.trans ⟨fun h => h ▸ .absent, ?_⟩
      rintro ⟨⟩
      rfl
  | some v =>
      by_cases hv : v = .null
      · subst hv
        rw [Option.elim_some, Json.merge_null]
        refine hkept.trans ⟨fun h => h ▸ .null, ?_⟩
        intro h
        cases h with
        | null => rfl
        | given hne => exact absurd rfl hne
      · rw [Option.elim_some, Json.merge_of_ne_null he hv, hreads]
        refine ⟨.given hv, ?_⟩
        intro h
        cases h with
        | null => exact absurd rfl hv
        | given _ ha => exact ha

/-! ### Switches and rules -/

/-- A value for a switch. -/
def GivesSwitch (v : Json) (b : Bool) : Prop := v = .bool b

/-- A value for the rules: a list, from each element of which a rule is read. -/
def GivesRules (v : Json) (rules : List RegionRule) : Prop :=
  ∃ elements, v = .array elements ∧
    List.Forall₂ (fun e rule => RegionRule.format.decode e = .ok rule) elements rules

theorem boolean_eq_ok_iff (v : Json) (b : Bool) : Decode.boolean v = .ok b ↔ GivesSwitch v b := by
  cases v <;> simp [Decode.boolean, Decode.mismatch, GivesSwitch]

theorem boolean_overridden_iff (base : Bool) (given : Option Json) (b : Bool) :
    Decode.boolean (given.elim (.bool base) (Json.bool base).merge) = .ok b ↔
      Takes GivesSwitch base given b :=
  read_overridden_iff boolean_eq_ok_iff (by simp) rfl given b

theorem decodeAll_eq_ok_iff (v : Json) (rules : List RegionRule) :
    RegionRule.decodeAll v = .ok rules ↔ GivesRules v rules := by
  cases v with
  | array elements =>
      refine (mapM_eq_ok_iff RegionRule.format.decode elements rules).trans
        ⟨fun h => ⟨elements, rfl, h⟩, ?_⟩
      rintro ⟨_, ⟨⟩, h⟩
      exact h
  | _ => simp [RegionRule.decodeAll, Decode.list, Decode.mismatch, GivesRules]

theorem decode_encode_rule (rule : RegionRule) :
    RegionRule.format.decode rule.encode = .ok rule := rfl

theorem decodeAll_encode (rules : List RegionRule) :
    RegionRule.decodeAll (.array (rules.map RegionRule.encode)) = .ok rules := by
  refine (decodeAll_eq_ok_iff _ _).2 ⟨_, rfl, ?_⟩
  rw [List.forall₂_map_left_iff, List.forall₂_same]
  intro rule _
  exact decode_encode_rule rule

/-- A list from each element of which a rule can be read. -/
def AreRules (v : Json) : Prop :=
  ∃ elements, v = .array elements ∧ ∀ e ∈ elements, ∃ rule, RegionRule.format.decode e = .ok rule

theorem exists_givesRules_iff (v : Json) : (∃ rules, GivesRules v rules) ↔ AreRules v := by
  constructor
  · rintro ⟨rules, elements, rfl, h⟩
    refine ⟨elements, rfl, ?_⟩
    induction h with
    | nil => simp
    | cons hrule _ ih => exact List.forall_mem_cons.2 ⟨⟨_, hrule⟩, ih⟩
  · rintro ⟨elements, rfl, h⟩
    choose! rule hrule using h
    refine ⟨elements.map rule, elements, rfl, ?_⟩
    rw [List.forall₂_map_right_iff, List.forall₂_same]
    exact hrule

/-! ### Regions -/

theorem ignores_regionFormat : RegionConfig.format.Ignores := by
  intro c key value hkey
  have hne : key ≠ "enabled" ∧ key ≠ "rules" := by simpa [RegionConfig.format] using hkey
  simp [RegionConfig.format, hne]

theorem ofMembers_region_iff (enabled rules : Json) (r : RegionConfig) :
    RegionConfig.format.ofMembers [("enabled", enabled), ("rules", rules)] = .ok r ↔
      Decode.boolean enabled = .ok r.enabled ∧ RegionRule.decodeAll rules = .ok r.rules := by
  obtain ⟨enabled', rules'⟩ := r
  cases henabled : Decode.boolean enabled <;> cases hrules : RegionRule.decodeAll rules <;>
    simp [RecordFormat.ofMembers, RecordFormat.readAll, RegionConfig.format, henabled, hrules, bind,
      Except.bind, Except.map, Except.mapError, pure, Except.pure]

/-- What an override says about regions. -/
def regionMembers (os : Members) : Members :=
  match os.get? "region" with
  | some (.object ms) => ms
  | _ => []

/-- An override says nothing about regions, or gives them an object. -/
def AdmitsRegion (os : Members) : Prop := Admits (fun v => ∃ ms, v = .object ms) (os.get? "region")

theorem nodup_keys_regionMembers {os : Members} (h : (Json.object os).keysApart = true) :
    (regionMembers os).keys.Nodup := by
  unfold regionMembers
  split
  · next ms hms =>
    have hregion := (Json.keysApart_object_iff.1 h).2 _ (mem_of_get? hms)
    exact (Json.keysApart_object_iff.1 hregion).1
  · exact List.nodup_nil

/-- Regions are overridden by what the override says about them, even if it is nothing. -/
theorem overridden_region {os : Members} (h : AdmitsRegion os) (ms : Members) :
    (os.get? "region").elim (.object ms) (Json.object ms).merge =
      (Json.object ms).merge (.object (regionMembers os)) := by
  have hempty : (Json.object ms).merge (.object []) = .object ms := by
    rw [Json.merge_object, Json.mergeMembers]
  unfold regionMembers
  rcases h with hnone | hnull | ⟨_, hsome, rs, rfl⟩
  · rw [hnone]
    exact hempty.symm
  · rw [hnull, Option.elim_some, Json.merge_null]
    exact hempty.symm
  · rw [hsome]
    rfl

theorem decode_region_iff {os : Members} (hos : os.keys.Nodup) (c r : RegionConfig) :
    RegionConfig.format.decode (c.encode.merge (.object os)) = .ok r ↔
      Takes GivesSwitch c.enabled (os.get? "enabled") r.enabled ∧
        Takes GivesRules c.rules (os.get? "rules") r.rules := by
  rw [RegionConfig.encode, RecordFormat.decode_merge ignores_regionFormat rfl (by decide) hos]
  refine (ofMembers_region_iff _ _ r).trans (and_congr ?_ ?_)
  · exact boolean_overridden_iff _ _ _
  · exact read_overridden_iff decodeAll_eq_ok_iff (by simp) (decodeAll_encode c.rules) _ _

/-! ### The configuration -/

theorem ignores_format : format.Ignores := by
  intro c key value hkey
  have hne : key ≠ "descriptor" ∧ key ≠ "schema" ∧ key ≠ "highlight" ∧ key ≠ "resource" ∧
      key ≠ "region" := by simpa [format] using hkey
  simp [format, hne]

theorem ofMembers_iff (descriptor schema highlight resource region : Json) (c : Config) :
    format.ofMembers [("descriptor", descriptor), ("schema", schema), ("highlight", highlight),
        ("resource", resource), ("region", region)] = .ok c ↔
      Decode.boolean descriptor = .ok c.descriptor ∧ Decode.boolean schema = .ok c.schema ∧
        Decode.boolean highlight = .ok c.highlight ∧ Decode.boolean resource = .ok c.resource ∧
        RegionConfig.format.decode region = .ok c.region := by
  obtain ⟨descriptor', schema', highlight', resource', region'⟩ := c
  cases hdescriptor : Decode.boolean descriptor <;> cases hschema : Decode.boolean schema <;>
    cases hhighlight : Decode.boolean highlight <;> cases hresource : Decode.boolean resource <;>
    cases hregion : RegionConfig.format.decode region <;>
    simp [RecordFormat.ofMembers, RecordFormat.readAll, format, hdescriptor, hschema, hhighlight,
      hresource, hregion, bind, Except.bind, Except.map, Except.mapError, pure, Except.pure]

/-- What an override gives each field of a configuration. -/
structure Overrides where
  descriptor : Option Json
  schema : Option Json
  highlight : Option Json
  resource : Option Json
  enabled : Option Json
  rules : Option Json

/-- What the members of an override give each field. -/
def Overrides.of (os : Members) : Overrides where
  descriptor := os.get? "descriptor"
  schema := os.get? "schema"
  highlight := os.get? "highlight"
  resource := os.get? "resource"
  enabled := (regionMembers os).get? "enabled"
  rules := (regionMembers os).get? "rules"

/-- The configuration `c'` is `c` with the fields that were given something. -/
structure Follows (c : Config) (o : Overrides) (c' : Config) : Prop where
  descriptor : Takes GivesSwitch c.descriptor o.descriptor c'.descriptor
  schema : Takes GivesSwitch c.schema o.schema c'.schema
  highlight : Takes GivesSwitch c.highlight o.highlight c'.highlight
  resource : Takes GivesSwitch c.resource o.resource c'.resource
  enabled : Takes GivesSwitch c.region.enabled o.enabled c'.region.enabled
  rules : Takes GivesRules c.region.rules o.rules c'.region.rules

/-- **What an override makes of a configuration.** -/
theorem apply_eq_ok_iff {os : Members} (hos : (Json.object os).keysApart = true)
    (hregion : AdmitsRegion os) (c c' : Config) :
    c.apply (.object os) = .ok c' ↔ Follows c (.of os) c' := by
  have hkeys : os.keys.Nodup := (Json.keysApart_object_iff.1 hos).1
  have hdecode : c.apply (.object os) = .ok c' ↔
      format.decode (c.encode.merge (.object os)) = .ok c' := by
    constructor
    · exact Json.ok_of_mapError
    · intro h
      rw [apply, decode, h]
      rfl
  have hmember (m : String × Json) :
      overridden os m = (m.1, (os.get? m.1).elim m.2 m.2.merge) := rfl
  rw [hdecode, encode, RecordFormat.decode_merge ignores_format rfl (by decide) hkeys]
  simp only [List.map_cons, List.map_nil, hmember]
  rw [ofMembers_iff, RegionConfig.encode, overridden_region hregion, ← RegionConfig.encode,
    decode_region_iff (nodup_keys_regionMembers hos)]
  simp only [boolean_overridden_iff]
  constructor
  · rintro ⟨hdescriptor, hschema, hhighlight, hresource, henabled, hrules⟩
    exact ⟨hdescriptor, hschema, hhighlight, hresource, henabled, hrules⟩
  · rintro ⟨hdescriptor, hschema, hhighlight, hresource, henabled, hrules⟩
    exact ⟨hdescriptor, hschema, hhighlight, hresource, henabled, hrules⟩

/-- A truth value. -/
def IsSwitch (v : Json) : Prop := ∃ b, v = .bool b

/-- Each field is given nothing, `null`, or something that it can take. -/
structure Acceptable (o : Overrides) : Prop where
  descriptor : Admits IsSwitch o.descriptor
  schema : Admits IsSwitch o.schema
  highlight : Admits IsSwitch o.highlight
  resource : Admits IsSwitch o.resource
  enabled : Admits IsSwitch o.enabled
  rules : Admits AreRules o.rules

theorem exists_follows_iff (c : Config) (o : Overrides) :
    (∃ c', Follows c o c') ↔ Acceptable o := by
  have hswitch (base : Bool) (given : Option Json) :
      (∃ b, Takes GivesSwitch base given b) ↔ Admits IsSwitch given := exists_takes_iff
  have hrules (base : List RegionRule) (given : Option Json) :
      (∃ rules, Takes GivesRules base given rules) ↔ Admits AreRules given := by
    rw [exists_takes_iff]
    simp only [exists_givesRules_iff]
  constructor
  · rintro ⟨c', h⟩
    exact ⟨(hswitch _ _).1 ⟨_, h.descriptor⟩, (hswitch _ _).1 ⟨_, h.schema⟩,
      (hswitch _ _).1 ⟨_, h.highlight⟩, (hswitch _ _).1 ⟨_, h.resource⟩,
      (hswitch _ _).1 ⟨_, h.enabled⟩, (hrules _ _).1 ⟨_, h.rules⟩⟩
  · intro h
    obtain ⟨descriptor, hdescriptor⟩ := (hswitch c.descriptor _).2 h.descriptor
    obtain ⟨schema, hschema⟩ := (hswitch c.schema _).2 h.schema
    obtain ⟨highlight, hhighlight⟩ := (hswitch c.highlight _).2 h.highlight
    obtain ⟨resource, hresource⟩ := (hswitch c.resource _).2 h.resource
    obtain ⟨enabled, henabled⟩ := (hswitch c.region.enabled _).2 h.enabled
    obtain ⟨rules, hrules⟩ := (hrules c.region.rules _).2 h.rules
    exact ⟨⟨descriptor, schema, highlight, resource, ⟨enabled, rules⟩⟩,
      hdescriptor, hschema, hhighlight, hresource, henabled, hrules⟩

/-- **When an override is accepted, and what it does.**  It is accepted exactly if it gives each
field nothing, `null`, or something that the field can take.  Then each field has what it was given,
or what it had if this is nothing or `null`; other members of the override make no difference.  If
the override is refused, a session stays as it was, with its configuration and its patterns for
regions. -/
theorem apply_field_by_field (c : Config) (os : Members)
    (hos : (Json.object os).keysApart = true) (hregion : AdmitsRegion os) :
    ((∃ c', c.apply (.object os) = .ok c') ↔ Acceptable (.of os)) ∧
    (∀ c', c.apply (.object os) = .ok c' → Follows c (.of os) c') ∧
    (∀ os' : Members, (Json.object os').keysApart = true → AdmitsRegion os' →
      Overrides.of os' = Overrides.of os →
        ∀ c', c.apply (.object os') = .ok c' ↔ c.apply (.object os) = .ok c') ∧
    ∀ {P : Script.Parser} (w : World P), w.session.config = c →
      (∀ c', c.apply (.object os) = .ok c' →
        (w.perform (.applyConfig (.object os))).2.session.config = c') ∧
      ∀ e, c.apply (.object os) = .error e →
        w.perform (.applyConfig (.object os)) = (.invalidConfig e, w) := by
  have happly := apply_eq_ok_iff hos hregion c
  refine ⟨?_, fun c' => (happly c').1, ?_, ?_⟩
  · simp only [happly]
    exact exists_follows_iff c (.of os)
  · intro os' hos' hregion' hsame c'
    rw [happly, apply_eq_ok_iff hos' hregion', hsame]
  · rintro P w rfl
    constructor
    · intro c' h
      simp only [World.perform, Session.applyConfig, h]
      rfl
    · intro e h
      simp only [World.perform, Session.applyConfig, h]
      rfl

/-- An override with a switch, nulls, rules written in two ways, and members that mean nothing. -/
def mixedOverride : Members :=
  [("color", .object [("schema", .null)]), ("highlight", .bool false), ("schema", .null),
    ("region", .object [("enabled", .null), ("Rules", .bool true), ("rules", .array
      [.object [("endRegex", .string "b"), ("beginRegex", .string "a")],
        .array [.string "c", .string "d"]])])]

/-- The override switches the annotations off and replaces the rules.  With a text for a switch it
is not acceptable, and a session does not change by it. -/
theorem apply_field_by_field_mixed :
    Acceptable (.of mixedOverride) ∧
    Follows standard (.of mixedOverride)
      ⟨true, true, false, true, ⟨true, [⟨"a", "b"⟩, ⟨"c", "d"⟩]⟩⟩ ∧
    ¬ Acceptable (.of (("resource", .string "yes") :: mixedOverride)) ∧
    ∃ e, (World.start (FileStore.empty []) 0 standard : World Script.Parser.standard).perform
        (.applyConfig (.object (("resource", .string "yes") :: mixedOverride))) =
      (.invalidConfig e, World.start (FileStore.empty []) 0 standard) := by
  have hregion : AdmitsRegion mixedOverride := .inr (.inr ⟨_, rfl, _, rfl⟩)
  have happly : standard.apply (.object mixedOverride) =
      .ok ⟨true, true, false, true, ⟨true, [⟨"a", "b"⟩, ⟨"c", "d"⟩]⟩⟩ := rfl
  have hrefused : standard.apply (.object (("resource", .string "yes") :: mixedOverride)) =
      .error ⟨.invalidType (.text "yes") "a boolean"⟩ := rfl
  obtain ⟨haccept, hfollow, -, -⟩ :=
    apply_field_by_field standard mixedOverride (by decide +kernel) hregion
  obtain ⟨haccept', -, -, hsession⟩ := apply_field_by_field standard
    (("resource", .string "yes") :: mixedOverride) (by decide +kernel) hregion
  refine ⟨haccept.1 ⟨_, happly⟩, hfollow _ happly, ?_, _, (hsession _ rfl).2 _ hrefused⟩
  intro h
  obtain ⟨c', hc'⟩ := haccept'.2 h
  rw [hrefused] at hc'
  cases hc'

end Config

end SchemaScope
