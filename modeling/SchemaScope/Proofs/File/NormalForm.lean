/-
**The normal form of a path.**

Steps are brought into normal form one after the other: a step to the parent takes back the name
before it, is lost at the root, and is kept where nothing stands before it but other such steps.  So
what comes out leads from the root to names, or up some levels and then to names.  It leads where the
steps led before, from any directory, and steps of this form are left as they are.

The normal form is spelled with single slashes, and its text is read back as the same steps.

Main definitions:

* `Segment.IsNormal` — from the root to names, or up and then to names;
* `Path.IsComponent` — what stands for a name between slashes.

Main results:

* `Segment.isNormal_normalize` — **the normal form has the form that is promised**;
* `Segment.normalize_of_isNormal` — steps in normal form are left as they are;
* `Segment.resolve_normalize` — **the normal form leads to the same place**;
* `Path.segments_normalize` — the text of the normal form spells its steps;
* `Path.join_ofSegments` — one more name behind the text of a normal form.
-/

import Mathlib.Data.List.Induction
import SchemaScope.Proofs.File.Steps

set_option autoImplicit false

namespace SchemaScope

namespace Segment

/-! ### Steps in normal form -/

/-- Steps in normal form lead from the root to names, or up some levels and then to names. -/
inductive IsNormal : List Segment → Prop
  | absolute (names : List String) : IsNormal (root :: names.map name)
  | relative (ups : Nat) (names : List String) :
      IsNormal (List.replicate ups up ++ names.map name)

theorem here_notMem_of_isNormal {steps : List Segment} (h : IsNormal steps) : here ∉ steps := by
  cases h <;> simp

theorem normalize_concat (steps : List Segment) (s : Segment) :
    normalize (steps ++ [s]) = (pushNormal (normalize steps).reverse s).reverse := by
  simp [normalize]

/-- Further steps see nothing but the normal form of the steps before them. -/
theorem normalize_append_congr {steps others : List Segment} (h : normalize steps = normalize others)
    (further : List Segment) : normalize (steps ++ further) = normalize (others ++ further) := by
  have hstacks : steps.foldl pushNormal [] = others.foldl pushNormal [] :=
    List.reverse_injective h
  simp only [normalize, List.foldl_append, hstacks]

/-- Names are put behind what is there. -/
theorem normalize_append_names (steps : List Segment) (names : List String) :
    normalize (steps ++ names.map name) = normalize steps ++ names.map name := by
  induction names using List.reverseRecOn with
  | nil => simp
  | append_singleton names text ih =>
      rw [List.map_append, ← List.append_assoc, List.map_singleton, normalize_concat, ih]
      simp [pushNormal]

/-- A step to the parent takes back a name. -/
theorem normalize_append_name_up (steps : List Segment) (text : String) :
    normalize (steps ++ [name text, up]) = normalize steps := by
  rw [show steps ++ [name text, up] = steps ++ [name text] ++ [up] by simp, normalize_concat,
    normalize_concat]
  simp [pushNormal]

/-- Where nothing stands but steps up, one more is kept. -/
theorem pushNormal_replicate_up (ups : Nat) :
    pushNormal (List.replicate ups up) up = List.replicate (ups + 1) up := by
  cases ups <;> rfl

/-- One more step keeps the normal form. -/
theorem IsNormal.pushNormal {steps : List Segment} (h : IsNormal steps) (s : Segment) :
    IsNormal (pushNormal steps.reverse s).reverse := by
  cases s with
  | root => exact .absolute []
  | here => simpa [Segment.pushNormal] using h
  | name text =>
      cases h with
      | absolute names => simpa [Segment.pushNormal] using IsNormal.absolute (names ++ [text])
      | relative ups names =>
          simpa [Segment.pushNormal] using IsNormal.relative ups (names ++ [text])
  | up =>
      -- what stands last decides: a name is taken back, the root stays, and another step up is joined
      cases h with
      | absolute names =>
          cases names using List.reverseRecOn with
          | nil => exact .absolute []
          | append_singleton names text =>
              simpa [Segment.pushNormal] using IsNormal.absolute names
      | relative ups names =>
          cases names using List.reverseRecOn with
          | nil => simpa [pushNormal_replicate_up] using IsNormal.relative (ups + 1) []
          | append_singleton names text =>
              simpa [Segment.pushNormal] using IsNormal.relative ups names

/-- Behind other steps nothing leads to the root. -/
theorem IsNormal.eq_nil_of_concat_root {steps : List Segment} (h : IsNormal (steps ++ [root])) :
    steps = [] := by
  generalize hsteps : steps ++ [root] = whole at h
  cases h with
  | absolute names =>
      cases names using List.reverseRecOn with
      | nil => simpa using hsteps
      | append_singleton names text =>
          rw [List.map_append, ← List.cons_append] at hsteps
          simpa using (List.append_inj' hsteps rfl).2
  | relative ups names =>
      have hmem : root ∈ List.replicate ups up ++ names.map name := by simp [← hsteps]
      simp at hmem

/-- **What comes out is in normal form.** -/
theorem isNormal_normalize (steps : List Segment) : IsNormal (normalize steps) := by
  induction steps using List.reverseRecOn with
  | nil => exact .relative 0 []
  | append_singleton steps s ih =>
      rw [normalize_concat]
      exact ih.pushNormal s

/-- Steps in normal form are left as they are. -/
theorem normalize_of_isNormal {steps : List Segment} (h : IsNormal steps) :
    normalize steps = steps := by
  cases h with
  | absolute names => exact normalize_append_names [root] names
  | relative ups names =>
      have hups : normalize (List.replicate ups up) = List.replicate ups up := by
        induction ups with
        | zero => rfl
        | succ ups ih =>
            rw [List.replicate_succ', normalize_concat, ih, List.reverse_replicate,
              pushNormal_replicate_up, List.reverse_replicate, List.replicate_succ']
      rw [normalize_append_names, hups]

/-- The normal form starts at the root exactly if some step leads there. -/
theorem root_mem_normalize_iff (steps : List Segment) :
    root ∈ normalize steps ↔ root ∈ steps := by
  induction steps using List.reverseRecOn with
  | nil => rfl
  | append_singleton steps s ih =>
      have hstack : root ∈ (normalize steps).reverse ↔ root ∈ steps := by rw [List.mem_reverse, ih]
      rw [normalize_concat, List.mem_reverse, List.mem_append, ← hstack]
      generalize (normalize steps).reverse = stack
      cases s with
      | root | here | name => simp [pushNormal]
      | up =>
          rcases stack with _ | ⟨_ | _ | _ | _, _⟩ <;> simp [pushNormal]

/-- The names of the normal form have been there before. -/
theorem mem_of_name_mem_normalize {steps : List Segment} {text : String}
    (h : name text ∈ normalize steps) : name text ∈ steps := by
  induction steps using List.reverseRecOn with
  | nil => exact h
  | append_singleton steps s ih =>
      have hstack : name text ∈ (normalize steps).reverse → name text ∈ steps := by
        rw [List.mem_reverse]
        exact ih
      rw [normalize_concat, List.mem_reverse] at h
      generalize (normalize steps).reverse = stack at h hstack
      rw [List.mem_append]
      cases s with
      | root => simp [pushNormal] at h
      | here => exact .inl (hstack h)
      | name other =>
          rcases List.mem_cons.1 h with h | h
          · exact .inr (by simpa using h)
          · exact .inl (hstack h)
      | up =>
          refine .inl (hstack ?_)
          rcases stack with _ | ⟨_ | _ | _ | _, _⟩ <;> simp_all [pushNormal]

/-! ### Where the normal form leads -/

theorem resolve_concat (directory : List String) (steps : List Segment) (s : Segment) :
    resolve directory (steps ++ [s]) = step (resolve directory steps) s := by
  simp [resolve]

/-- One more step leads on from where the steps in normal form led. -/
theorem resolve_pushNormal (directory : List String) (stack : List Segment) (s : Segment) :
    resolve directory (pushNormal stack s).reverse =
      step (resolve directory stack.reverse) s := by
  cases s with
  | root | here => rfl
  | name text => rw [pushNormal, List.reverse_cons, resolve_concat]
  | up =>
      rcases stack with _ | ⟨_ | _ | _ | text, rest⟩
      · rfl
      · -- the parent of the root is the root
        simp [pushNormal, resolve_concat, step]
      · rw [pushNormal, List.reverse_cons, resolve_concat]
        all_goals simp
      · rw [pushNormal, List.reverse_cons, resolve_concat]
        all_goals simp
      · simp [pushNormal, resolve_concat, step]

/-- **The normal form leads to the same place**, from any directory. -/
theorem resolve_normalize (directory : List String) (steps : List Segment) :
    resolve directory (normalize steps) = resolve directory steps := by
  induction steps using List.reverseRecOn with
  | nil => rfl
  | append_singleton steps s ih =>
      rw [normalize_concat, resolve_pushNormal, List.reverse_reverse, ih, resolve_concat]

end Segment

/-! ### The text of a normal form -/

theorem joinSlashes_concat {pieces : List (List Char)} (hne : pieces ≠ []) (piece : List Char) :
    joinSlashes (pieces ++ [piece]) = joinSlashes pieces ++ '/' :: piece := by
  induction pieces with
  | nil => exact absurd rfl hne
  | cons first rest ih =>
      cases rest with
      | nil => rfl
      | cons next rest =>
          have hrest := ih (by simp)
          rw [List.cons_append] at hrest
          simp [joinSlashes, hrest]

namespace Path

/-- What stands for a name between slashes: a text without slashes that is neither empty nor one or
two dots. -/
def IsComponent (name : String) : Prop := IsName name ∧ name.toList ≠ ['.', '.']

instance (name : String) : Decidable (IsComponent name) := inferInstanceAs (Decidable (_ ∧ _))

theorem IsComponent.ofPiece {name : String} (h : IsComponent name) :
    Segment.ofPiece name.toList = [.name name] := by
  have hidle : ¬ (name.toList = [] ∨ name.toList = ['.']) := h.1.2
  rw [Segment.ofPiece, if_neg hidle, if_neg h.2, String.ofList_toList]

theorem segments_join_of_isComponent (p : Path) {name : String} (h : IsComponent name) :
    (p.join name).segments = p.segments ++ [.name name] := by
  rw [segments_join p h.1, h.ofPiece]

theorem name_mem_ofPiece {piece : List Char} {text : String}
    (h : Segment.name text ∈ Segment.ofPiece piece) :
    text.toList = piece ∧ ¬ Segment.IsIdle piece ∧ piece ≠ ['.', '.'] := by
  unfold Segment.ofPiece at h
  split_ifs at h with hidle hup
  · cases h
  · simp at h
  · obtain rfl : text = String.ofList piece := by simpa using h
    exact ⟨by simp, hidle, hup⟩

/-- A name on a path comes from one of the pieces between slashes. -/
theorem isComponent_of_mem_segments {p : Path} {text : String}
    (h : Segment.name text ∈ p.segments) : IsComponent text := by
  have hpiece : ∃ piece ∈ p.pieces, Segment.name text ∈ Segment.ofPiece piece := by
    rw [segments_eq_stepsOf] at h
    cases hp : p.pieces with
    | nil => exact absurd hp (splitSlashes_ne_nil _)
    | cons first rest =>
        rw [hp, stepsOf, List.mem_append, List.mem_flatMap] at h
        rcases h with h | ⟨piece, hpiece, hmem⟩
        · refine ⟨first, List.mem_cons_self, ?_⟩
          split_ifs at h <;> simp_all
        · exact ⟨piece, List.mem_cons_of_mem _ hpiece, hmem⟩
  obtain ⟨piece, hmem, hname⟩ := hpiece
  obtain ⟨rfl, hidle, hup⟩ := name_mem_ofPiece hname
  exact ⟨⟨not_mem_of_mem_splitSlashes hmem, hidle⟩, hup⟩

/-- Steps in normal form that can be spelled: their names stand for names. -/
structure Spellable (steps : List Segment) : Prop where
  normal : Segment.IsNormal steps
  names : ∀ text, Segment.name text ∈ steps → IsComponent text

theorem spellable_normalize (p : Path) : Spellable (Segment.normalize p.segments) :=
  ⟨Segment.isNormal_normalize _,
    fun _ h => isComponent_of_mem_segments (Segment.mem_of_name_mem_normalize h)⟩

theorem Spellable.concat {steps : List Segment} (h : Spellable steps) {name : String}
    (hname : IsComponent name) : Spellable (steps ++ [.name name]) := by
  refine ⟨?_, ?_⟩
  · simpa [Segment.pushNormal] using h.normal.pushNormal (.name name)
  · intro text htext
    rcases List.mem_append.1 htext with htext | htext
    · exact h.names text htext
    · obtain rfl : text = name := by simpa using htext
      exact hname

/-- The steps of a normal form behind the root are spelled one by one. -/
theorem ofPiece_text {steps : List Segment} {s : Segment} (h : Spellable steps) (hs : s ∈ steps)
    (hroot : s ≠ .root) :
    Segment.ofPiece s.text = [s] ∧ '/' ∉ s.text ∧ s.text ≠ [] ∧ s.text ≠ ['.'] := by
  cases s with
  | root => exact absurd rfl hroot
  | here => exact absurd hs (Segment.here_notMem_of_isNormal h.normal)
  | up => simp [Segment.text, Segment.ofPiece]
  | name text =>
      have hname := h.names text hs
      obtain ⟨hempty, hdot⟩ := not_or.1 hname.1.2
      exact ⟨hname.ofPiece, hname.1.1, hempty, hdot⟩

theorem flatMap_ofPiece_text {steps tail : List Segment} (h : Spellable steps) (htail : tail ⊆ steps)
    (hroot : .root ∉ tail) : (tail.map Segment.text).flatMap Segment.ofPiece = tail := by
  induction tail with
  | nil => rfl
  | cons s tail ih =>
      rw [List.cons_subset] at htail
      rw [List.mem_cons, not_or] at hroot
      rw [List.map_cons, List.flatMap_cons, ih htail.2 hroot.2,
        (ofPiece_text h htail.1 (Ne.symm hroot.1)).1]
      rfl

theorem slash_notMem_of_mem_text {steps tail : List Segment} (h : Spellable steps)
    (htail : tail ⊆ steps) (hroot : .root ∉ tail) : ∀ piece ∈ tail.map Segment.text, '/' ∉ piece := by
  intro piece hpiece
  obtain ⟨s, hs, rfl⟩ := List.mem_map.1 hpiece
  exact (ofPiece_text h (htail hs) fun hr => hroot (hr ▸ hs)).2.1

/-- Away from the root the steps are spelled with slashes between them. -/
theorem ofSegments_of_root_notMem {steps : List Segment} (h : .root ∉ steps) :
    ofSegments steps = ⟨String.ofList (joinSlashes (steps.map Segment.text))⟩ := by
  cases steps with
  | nil => rfl
  | cons s rest => cases s <;> first | exact absurd List.mem_cons_self h | rfl

/-- The text of a normal form spells its steps. -/
theorem segments_ofSegments {steps : List Segment} (h : Spellable steps) :
    (ofSegments steps).segments = steps := by
  rcases h.normal with ⟨names⟩ | ⟨ups, names⟩
  · -- behind the first slash stand the names
    have hroot : Segment.root ∉ names.map Segment.name := by simp
    have hsubset : names.map Segment.name ⊆ .root :: names.map Segment.name :=
      List.subset_cons_self _ _
    have hpieces : (ofSegments (.root :: names.map .name)).pieces =
        [] :: splitSlashes (joinSlashes ((names.map Segment.name).map Segment.text)) := by
      simp [ofSegments, pieces, splitSlashes_slash]
    have habsolute : (ofSegments (.root :: names.map .name)).isAbsolute = true := by
      simp [ofSegments, isAbsolute]
    rw [segments_eq_stepsOf, hpieces, habsolute, stepsOf]
    by_cases hnil : names = []
    · subst hnil
      rfl
    · rw [splitSlashes_joinSlashes (by simpa using hnil) (slash_notMem_of_mem_text h hsubset hroot),
        flatMap_ofPiece_text h hsubset hroot]
      rfl
  · have hroot : Segment.root ∉ List.replicate ups Segment.up ++ names.map Segment.name := by simp
    generalize List.replicate ups Segment.up ++ names.map Segment.name = steps at h hroot
    cases steps with
    | nil => rfl
    | cons s rest =>
        have hs : s ≠ .root := by
          rintro rfl
          exact hroot List.mem_cons_self
        have hpieces : (ofSegments (s :: rest)).pieces = (s :: rest).map Segment.text := by
          rw [ofSegments_of_root_notMem hroot, pieces, String.toList_ofList,
            splitSlashes_joinSlashes (by simp) (slash_notMem_of_mem_text h (List.Subset.refl _) hroot)]
        obtain ⟨-, -, hempty, hdot⟩ := ofPiece_text h List.mem_cons_self hs
        have hrelative : (ofSegments (s :: rest)).isAbsolute = false := by
          rw [Bool.eq_false_iff, Ne, isAbsolute_iff, hpieces]
          simp [hempty]
        have hflat := flatMap_ofPiece_text h (List.Subset.refl _) hroot
        rw [List.map_cons, List.flatMap_cons] at hflat
        rw [segments_eq_stepsOf, hpieces, hrelative, List.map_cons, stepsOf]
        simpa [hdot] using hflat

/-- The text of the normal form of a path spells its steps. -/
theorem segments_normalize (p : Path) : p.normalize.segments = Segment.normalize p.segments :=
  segments_ofSegments (spellable_normalize p)

/-! ### One more name -/

theorem join_ofList {cs : List Char} (hcs : cs ≠ []) (hlast : cs.getLast? ≠ some '/')
    (name : String) :
    join ⟨String.ofList cs⟩ name = ⟨String.ofList (cs ++ '/' :: name.toList)⟩ := by
  have hempty : (String.ofList cs).isEmpty = false := by simpa [String.isEmpty_iff] using hcs
  have htext : String.ofList cs ++ "/" ++ name = String.ofList (cs ++ '/' :: name.toList) :=
    String.toList_injective (by simp)
  simp [join, hempty, hlast, htext]

/-- One more step behind others is spelled behind a slash. -/
theorem text_ofSegments_concat {steps : List Segment} (hne : steps ≠ []) (hroot : steps ≠ [.root])
    (s : Segment) : (ofSegments (steps ++ [s])).text.toList =
      (ofSegments steps).text.toList ++ '/' :: s.text := by
  rcases steps with _ | ⟨_ | _ | _ | _, rest⟩
  · exact absurd rfl hne
  · have hrest : rest.map Segment.text ≠ [] := by simpa using hroot
    simp [ofSegments, joinSlashes_concat hrest]
  all_goals
    simp only [ofSegments, List.cons_append, String.toList_ofList]
    rw [← List.cons_append, List.map_append]
    exact joinSlashes_concat (by simp) s.text

theorem suffix_text_ofSegments_concat (steps : List Segment) (s : Segment) :
    s.text <:+ (ofSegments (steps ++ [s])).text.toList := by
  by_cases hne : steps = []
  · cases s <;> simp [hne, ofSegments, joinSlashes, Segment.text]
  by_cases hroot : steps = [.root]
  · simp [hroot, ofSegments, joinSlashes]
  · exact ⟨(ofSegments steps).text.toList ++ ['/'], by simp [text_ofSegments_concat hne hroot]⟩

/-- Behind the text of a normal form stands one more name. -/
theorem join_ofSegments {steps : List Segment} (h : Spellable steps) (name : String) :
    (ofSegments steps).join name = ofSegments (steps ++ [.name name]) := by
  by_cases hroot : steps = [.root]
  · subst hroot
    simp [ofSegments, joinSlashes, join, Segment.text]
  cases steps using List.reverseRecOn with
  | nil => simp [ofSegments, joinSlashes, join, Segment.text]
  | append_singleton steps s =>
      -- the last step is spelled at the end, so no slash stands there
      have hs : s ≠ .root := by
        rintro rfl
        exact hroot (by rw [h.normal.eq_nil_of_concat_root, List.nil_append])
      obtain ⟨-, hslash, hempty, -⟩ := ofPiece_text h (by simp) hs
      obtain ⟨before, htext⟩ := suffix_text_ofSegments_concat steps s
      have hcs : before ++ s.text ≠ [] := by simp [hempty]
      have hlast : (before ++ s.text).getLast? ≠ some '/' := by
        rw [List.getLast?_append_of_ne_nil _ hempty]
        exact fun hl => hslash (List.mem_of_getLast? hl)
      have hpath : ofSegments (steps ++ [s]) = ⟨String.ofList (before ++ s.text)⟩ := by
        rw [htext, String.ofList_toList]
      rw [hpath, join_ofList hcs hlast, htext,
        show '/' :: name.toList = '/' :: (Segment.name name).text from rfl,
        ← text_ofSegments_concat (by simp) hroot, String.ofList_toList]

end Path

end SchemaScope
