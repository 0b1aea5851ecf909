/-
**Regions inside regions.**

The regions of a scan are the matched pairs of comments, and they lie inside one another as these
pairs do.  Where the comments stand one behind the other in the text, so do regions side by side,
and a region lies strictly between the ends of the one around it.

Main definitions:

* `Location.SideBySide`, `Location.Surrounds` — ranges of bytes one behind the other, and one around
  another;
* `Region.Nested` — regions side by side and around one another, at every depth.

Main results:

* `Region.Depicts.sideBySide`, `Region.Depicts.surrounds` — ranges of regions from positions of
  comments;
* `Region.IsMatching.nested` — the regions of a matching are nested;
* `Region.scan_eq_matching` — **the regions of a scan are the matched pairs of comments**.
-/

import SchemaScope.Proofs.Region.Scanning

set_option autoImplicit false

namespace SchemaScope

/-! ### Ranges of bytes -/

namespace Location

/-- Locations in source order: none is empty, and each ends before the next ones start. -/
structure SideBySide (ls : List Location) : Prop where
  nonempty : ∀ l ∈ ls, l.startByte < l.stopByte
  ordered : ls.Pairwise fun l m => l.stopByte ≤ m.startByte

/-- A location lies strictly between the ends of another one. -/
structure Surrounds (l m : Location) : Prop where
  start : l.startByte < m.startByte
  stop : m.stopByte < l.stopByte

end Location

namespace Region

open SchemaScope.Bracket Location

section Ranges

variable {cs : Comments} (hcs : SideBySide (cs.map Prod.snd))

include hcs

theorem startByte_lt_of_getElem? {k : Nat} {marker : Option Marker} {location : Location}
    (hk : cs[k]? = some (marker, location)) : location.startByte < location.stopByte := by
  apply hcs.nonempty
  exact List.mem_map.2 ⟨_, List.mem_of_getElem? hk, rfl⟩

theorem stopByte_le_of_lt {k l : Nat} (hkl : k < l) {marker marker' : Option Marker}
    {location location' : Location} (hk : cs[k]? = some (marker, location))
    (hl : cs[l]? = some (marker', location')) : location.stopByte ≤ location'.startByte := by
  obtain ⟨hk', hk⟩ := List.getElem?_eq_some_iff.1 hk
  obtain ⟨hl', hl⟩ := List.getElem?_eq_some_iff.1 hl
  have hordered := List.pairwise_iff_getElem.1 (List.pairwise_map.1 hcs.ordered) k l hk' hl' hkl
  rwa [hk, hl] at hordered

/-! ### Ranges of regions -/

theorem Depicts.startByte_lt {r : Region} {b : Bracket} (h : Depicts cs [r] [b])
    (hb : b.opening < b.closing) : r.location.startByte < r.location.stopByte := by
  cases h with
  | @cons i j name first last children _ inside _ hi hj _ _ =>
      have hfirst := startByte_lt_of_getElem? hcs hi
      have hlast := startByte_lt_of_getElem? hcs hj
      have hbetween := stopByte_le_of_lt hcs hb hi hj
      dsimp only [spanTo]
      omega

/-- Regions of brackets one behind the other. -/
theorem Depicts.stopByte_le {r r' : Region} {b b' : Bracket} (h : Depicts cs [r] [b])
    (h' : Depicts cs [r'] [b']) (hb : b.closing < b'.opening) :
    r.location.stopByte ≤ r'.location.startByte := by
  cases h with
  | cons _ hj _ _ =>
      cases h' with
      | cons hi' _ _ _ =>
          have hle := stopByte_le_of_lt hcs hb hj hi'
          exact hle

/-- Regions of brackets around one another. -/
theorem Depicts.surrounds {r r' : Region} {b b' : Bracket} (h : Depicts cs [r] [b])
    (h' : Depicts cs [r'] [b']) (hb : Encloses b.pair b'.pair) :
    r.location.Surrounds r'.location := by
  cases h with
  | @cons i j name first last _ _ _ _ hi hj _ _ =>
      cases h' with
      | @cons i' j' name' first' last' _ _ _ _ hi' hj' _ _ =>
          have hfirst := startByte_lt_of_getElem? hcs hi
          have hlast := startByte_lt_of_getElem? hcs hj
          have hopening := stopByte_le_of_lt hcs hb.1 hi hi'
          have hclosing := stopByte_le_of_lt hcs hb.2 hj' hj
          exact ⟨by dsimp only [spanTo]; omega, by dsimp only [spanTo]; omega⟩

theorem Depicts.sideBySide {rs : List Region} {bs : List Bracket} (h : Depicts cs rs bs)
    (hbs : ∀ b ∈ bs, b.opening < b.closing)
    (hapart : bs.Pairwise fun b c => b.closing < c.opening) :
    SideBySide (rs.map Region.location) := by
  induction h with
  | nil => exact ⟨by simp, .nil⟩
  | @cons i j name first last children rs inside bs hi hj hinside hrest _ ih =>
      obtain ⟨hfirst, hapart⟩ := List.pairwise_cons.1 hapart
      obtain ⟨hnonempty, hordered⟩ := ih (fun b hb => hbs b (List.mem_cons_of_mem _ hb)) hapart
      have hone : Depicts cs [⟨name, first.spanTo last, children⟩] [⟨i, j, inside⟩] :=
        .cons hi hj hinside .nil
      refine ⟨?_, .cons ?_ hordered⟩
      · intro l hl
        rcases List.mem_cons.1 hl with rfl | hl
        · exact hone.startByte_lt hcs (hbs _ List.mem_cons_self)
        · exact hnonempty l hl
      · intro l hl
        obtain ⟨r, hr, rfl⟩ := List.mem_map.1 hl
        obtain ⟨b, hb, hrb⟩ := hrest.exists_of_mem hr
        exact hone.stopByte_le hcs hrb (hfirst b hb)

end Ranges

/-! ### Regions at every depth -/

/-- Regions stand side by side at every depth, and each lies strictly inside the one around it. -/
structure Nested (rs : List Region) : Prop where
  top : SideBySide (rs.map Region.location)
  children : ∀ depth r, (depth, r) ∈ flattenAll 0 rs → SideBySide (r.children.map Region.location)
  inside : ∀ depth r, (depth, r) ∈ flattenAll 0 rs →
    ∀ c ∈ r.children, r.location.Surrounds c.location

theorem IsMatching.opening_lt {cs : Comments} {forest : List Bracket} (h : IsMatching cs forest)
    {b : Bracket} (hb : b ∈ withinAll forest) : b.opening < b.closing :=
  ((h.mem_iff b.opening b.closing).1 (List.mem_map_of_mem hb)).pair.lt

/-- The regions of a matching are nested. -/
theorem IsMatching.nested {cs : Comments} (hcs : SideBySide (cs.map Prod.snd)) {rs : List Region}
    {forest : List Bracket} (h : IsMatching cs forest) (hrs : Depicts cs rs forest) :
    Nested rs where
  top := hrs.sideBySide hcs (fun b hb => h.opening_lt (mem_withinAll hb)) h.apart
  children := by
    intro depth r hr
    obtain ⟨b, hb, hrb⟩ := hrs.exists_of_mem_flattenAll hr
    refine hrb.children.sideBySide hcs ?_ (h.apart_inside b hb)
    intro c hc
    exact h.opening_lt (mem_withinAll_of_inside hb hc)
  inside := by
    intro depth r hr s hs
    obtain ⟨b, hb, hrb⟩ := hrs.exists_of_mem_flattenAll hr
    obtain ⟨c, hc, hsc⟩ := hrb.children.exists_of_mem hs
    exact hrb.surrounds hcs hsc (h.parent b hb c hc).encloses

/-! ### The regions of a scan -/

/-- **The regions of a scan are the matched pairs of comments** before which every opening comment is
matched, and each stands directly inside the innermost pair around it.  Where the comments stand side
by side, the regions are nested in bytes. -/
theorem scan_eq_matching (cs : Comments) :
    ∃ forest, Depicts cs (scan cs) forest ∧ IsMatching cs forest ∧
      (SideBySide (cs.map Prod.snd) → Nested (scan cs)) := by
  obtain ⟨opened, closed, h⟩ := exists_tracks cs le_rfl
  rw [List.take_length] at h
  exact ⟨closed, h.depicts, h.isMatching, fun hcs => h.isMatching.nested hcs h.depicts⟩

/-- Comments two bytes long on one line, three bytes apart. -/
def onOneLine (markers : List (Option Marker)) : Comments :=
  markers.zipIdx.map fun (marker, k) =>
    (marker, ⟨⟨1, 3 * k⟩, ⟨1, 3 * k + 2⟩, 3 * k, 3 * k + 2⟩)

/-- A closing comment with nothing open, a region inside another one, and one that is inside a region
without an end. -/
def unevenComments : Comments :=
  onOneLine [some .closes, some (.opens "A"), some (.opens "B"), none, some .closes, some .closes,
    some (.opens "C"), some (.opens "D"), some .closes]

theorem scan_eq_matching_uneven :
    (flattenAll 0 (scan unevenComments)).map (fun (depth, r) => (depth, r.name)) =
        [(0, "A"), (1, "B")] ∧
      SideBySide (unevenComments.map Prod.snd) ∧
      ∃ forest, Depicts unevenComments (scan unevenComments) forest ∧
        IsMatching unevenComments forest ∧ Nested (scan unevenComments) := by
  have hcs : SideBySide (unevenComments.map Prod.snd) := ⟨by decide, by decide⟩
  obtain ⟨forest, hdepicts, hmatching, hnested⟩ := scan_eq_matching unevenComments
  exact ⟨by decide, hcs, forest, hdepicts, hmatching, hnested hcs⟩

end Region

end SchemaScope
