/-
**Matching comments.**

Comments that open and close regions are matched like brackets: a closing comment matches the nearest
opening comment before it that is still unmatched.  This module says so without a stack, by the
positions of the comments, and describes the forest that matched comments form: brackets that lie
inside one another or side by side, with no unmatched opening comment between them.

Main definitions:

* `Region.Matches` — an opening and a closing comment match;
* `Region.Reported` — a matched pair before which every opening comment is matched;
* `Region.Encloses`, `Region.Innermost` — pairs around pairs;
* `Bracket`, `Bracket.withinAll` — matched pairs by their positions, as a forest;
* `Region.Depicts` — regions that are named and placed as a forest of brackets says;
* `Bracket.Filled` — a forest that accounts for every opening comment of a stretch.

Main results:

* `Bracket.Filled.append` — stretches side by side;
* `Bracket.Filled.exists_of_opensAt` — every opening comment of a stretch opens one of its brackets;
* `Bracket.Filled.not_encloses`, `Bracket.Filled.innermost` — **a bracket lies directly inside the
  innermost bracket around it**;
* `Bracket.Filled.nodup_bounds` — no comment bounds two brackets.
-/

import Mathlib
import SchemaScope.Region

set_option autoImplicit false

namespace SchemaScope

namespace Region

/-! ### Matching comments -/

/-- What comments say and where they stand, in source order. -/
abbrev Comments := List (Option Marker × Location)

/-- The comment at a position opens a region. -/
def OpensAt (cs : Comments) (i : Nat) : Prop :=
  ∃ name location, cs[i]? = some (some (.opens name), location)

/-- The comment at a position closes a region. -/
def ClosesAt (cs : Comments) (j : Nat) : Prop := ∃ location, cs[j]? = some (some .closes, location)

/-- A closing comment matches the nearest opening comment before it that no earlier closing comment
matches. -/
def Matches (cs : Comments) (i j : Nat) : Prop :=
  OpensAt cs i ∧ ClosesAt cs j ∧ i < j ∧ (∀ l, ∀ _ : l < j, ¬ Matches cs i l) ∧
    ∀ k, i < k → k < j → OpensAt cs k → ∃ l, ∃ _ : l < j, Matches cs k l
termination_by j

/-- A matched pair before which every opening comment is matched. -/
structure Reported (cs : Comments) (i j : Nat) : Prop where
  pair : Matches cs i j
  earlier : ∀ k, k < i → OpensAt cs k → ∃ l, Matches cs k l

/-- The first pair of positions lies around the second one. -/
def Encloses (p q : Nat × Nat) : Prop := p.1 < q.1 ∧ q.2 < p.2

/-- Of the matched pairs around the second pair of positions, the first pair is the innermost. -/
structure Innermost (cs : Comments) (p q : Nat × Nat) : Prop where
  pair : Matches cs p.1 p.2
  encloses : Encloses p q
  least : ∀ r : Nat × Nat, Matches cs r.1 r.2 → Encloses r q → r = p ∨ Encloses r p

theorem Matches.closesAt {cs : Comments} {i j : Nat} (h : Matches cs i j) : ClosesAt cs j := by
  rw [Matches] at h
  exact h.2.1

theorem Matches.lt {cs : Comments} {i j : Nat} (h : Matches cs i j) : i < j := by
  rw [Matches] at h
  exact h.2.2.1

theorem ClosesAt.not_opensAt {cs : Comments} {j : Nat} (h : ClosesAt cs j) : ¬ OpensAt cs j := by
  obtain ⟨location, h⟩ := h
  rintro ⟨name, location', h'⟩
  rw [h] at h'
  cases h'

theorem OpensAt.lt_length {cs : Comments} {i : Nat} (h : OpensAt cs i) : i < cs.length := by
  obtain ⟨name, location, h⟩ := h
  exact (List.getElem?_eq_some_iff.1 h).1

theorem ClosesAt.lt_length {cs : Comments} {j : Nat} (h : ClosesAt cs j) : j < cs.length := by
  obtain ⟨location, h⟩ := h
  exact (List.getElem?_eq_some_iff.1 h).1

end Region

/-! ### Forests of brackets -/

/-- A pair of comments, by their positions, and the pairs directly inside it. -/
structure Bracket where
  opening : Nat
  closing : Nat
  inside : List Bracket

namespace Bracket

open Region

/-- The positions of the two comments. -/
def pair (b : Bracket) : Nat × Nat := (b.opening, b.closing)

mutual

/-- A bracket and all brackets inside it, outer ones first. -/
def within : Bracket → List Bracket
  | ⟨i, j, inside⟩ => ⟨i, j, inside⟩ :: withinAll inside

/-- Several brackets and all brackets inside them. -/
def withinAll : List Bracket → List Bracket
  | [] => []
  | b :: rest => b.within ++ withinAll rest

end

@[simp] theorem withinAll_nil : withinAll [] = [] := by rw [withinAll]

@[simp] theorem withinAll_cons (i j : Nat) (inside rest : List Bracket) :
    withinAll (⟨i, j, inside⟩ :: rest) =
      ⟨i, j, inside⟩ :: (withinAll inside ++ withinAll rest) := by
  rw [withinAll, within, List.cons_append]

theorem withinAll_append (bs bs' : List Bracket) :
    withinAll (bs ++ bs') = withinAll bs ++ withinAll bs' := by
  induction bs with
  | nil => simp
  | cons b bs ih =>
      obtain ⟨i, j, inside⟩ := b
      simp [ih]

theorem mem_withinAll {b : Bracket} {bs : List Bracket} (h : b ∈ bs) : b ∈ withinAll bs := by
  induction bs with
  | nil => cases h
  | cons c bs ih =>
      obtain ⟨i, j, inside⟩ := c
      rw [withinAll_cons]
      rcases List.mem_cons.1 h with rfl | h
      · exact List.mem_cons_self
      · simp [ih h]

/-- What is directly inside a bracket is inside all that the bracket is inside. -/
theorem mem_withinAll_of_inside {b c : Bracket} {bs : List Bracket} (hb : b ∈ withinAll bs)
    (hc : c ∈ b.inside) : c ∈ withinAll bs := by
  induction bs using withinAll.induct (fun d => b ∈ d.within → c ∈ d.within) with
  | case1 i j inside ih hb =>
      rw [within] at hb ⊢
      rcases List.mem_cons.1 hb with rfl | hb
      · exact List.mem_cons_of_mem _ (mem_withinAll hc)
      · exact List.mem_cons_of_mem _ (ih hb)
  | case2 => simp at hb
  | case3 d bs ih ih' =>
      rw [withinAll, List.mem_append] at hb ⊢
      exact hb.imp ih ih'

end Bracket

namespace Region

/-- The regions are those of the brackets: each is named by its opening comment, and runs from the
start of its opening comment to the end of its closing comment. -/
inductive Depicts (cs : Comments) : List Region → List Bracket → Prop
  | nil : Depicts cs [] []
  | cons {i j : Nat} {name : String} {first last : Location} {children rs : List Region}
      {inside bs : List Bracket} : cs[i]? = some (some (.opens name), first) →
      cs[j]? = some (some .closes, last) → Depicts cs children inside → Depicts cs rs bs →
      Depicts cs (⟨name, first.spanTo last, children⟩ :: rs) (⟨i, j, inside⟩ :: bs)

theorem Depicts.append {cs : Comments} {rs rs' : List Region} {bs bs' : List Bracket}
    (h : Depicts cs rs bs) (h' : Depicts cs rs' bs') : Depicts cs (rs ++ rs') (bs ++ bs') := by
  induction h with
  | nil => exact h'
  | cons hi hj hinside _ _ ih => exact .cons hi hj hinside ih

theorem Depicts.children {cs : Comments} {r : Region} {b : Bracket} (h : Depicts cs [r] [b]) :
    Depicts cs r.children b.inside := by
  cases h with
  | cons _ _ hinside _ => exact hinside

/-- Every region, at any depth, is that of a bracket. -/
theorem Depicts.exists_of_mem_flattenAll {cs : Comments} {rs : List Region} {bs : List Bracket}
    (h : Depicts cs rs bs) {depth depth' : Nat} {r : Region}
    (hr : (depth', r) ∈ flattenAll depth rs) : ∃ b ∈ Bracket.withinAll bs, Depicts cs [r] [b] := by
  induction h generalizing depth with
  | nil => simp [flattenAll] at hr
  | @cons i j name first last children rs inside bs hi hj hinside _ ihinside ih =>
      rw [flattenAll, flatten, List.mem_append, List.mem_cons] at hr
      rcases hr with (hr | hr) | hr
      · cases hr
        exact ⟨_, by simp, .cons hi hj hinside .nil⟩
      · obtain ⟨b, hb, hrb⟩ := ihinside hr
        exact ⟨b, by simp [hb], hrb⟩
      · obtain ⟨b, hb, hrb⟩ := ih hr
        exact ⟨b, by simp [hb], hrb⟩

theorem Depicts.exists_of_mem {cs : Comments} {rs : List Region} {bs : List Bracket}
    (h : Depicts cs rs bs) {r : Region} (hr : r ∈ rs) : ∃ b ∈ bs, Depicts cs [r] [b] := by
  induction h with
  | nil => cases hr
  | cons hi hj hinside _ _ ih =>
      rcases List.mem_cons.1 hr with rfl | hr
      · exact ⟨_, List.mem_cons_self, .cons hi hj hinside .nil⟩
      · obtain ⟨b, hb, hrb⟩ := ih hr
        exact ⟨b, List.mem_cons_of_mem _ hb, hrb⟩

end Region

/-! ### Forests that account for their opening comments -/

namespace Bracket

open Region

/-- The brackets lie in the stretch from `lo` up to `hi`, in order and inside one another, and every
opening comment of the stretch opens one of them. -/
inductive Filled (cs : Comments) : Nat → Nat → List Bracket → Prop
  | done {hi : Nat} : Filled cs hi hi []
  | skip {lo hi : Nat} {bs : List Bracket} : ¬ OpensAt cs lo → Filled cs (lo + 1) hi bs →
      Filled cs lo hi bs
  | bracket {i j hi : Nat} {inside bs : List Bracket} : OpensAt cs i → ClosesAt cs j →
      Filled cs (i + 1) j inside → Filled cs (j + 1) hi bs →
      Filled cs i hi (⟨i, j, inside⟩ :: bs)

namespace Filled

variable {cs : Comments} {lo mid hi : Nat} {bs bs' : List Bracket}

theorem le (h : Filled cs lo hi bs) : lo ≤ hi := by
  induction h with
  | done => exact le_rfl
  | skip _ _ ih => omega
  | bracket _ _ _ _ ihinside ih => omega

/-- Stretches side by side make one stretch. -/
theorem append (h : Filled cs lo mid bs) (h' : Filled cs mid hi bs') :
    Filled cs lo hi (bs ++ bs') := by
  induction h with
  | done => exact h'
  | skip hlo _ ih => exact .skip hlo (ih h')
  | bracket hi hj hinside _ _ ih => exact .bracket hi hj hinside (ih h')

theorem bounds (h : Filled cs lo hi bs) {b : Bracket} (hb : b ∈ withinAll bs) :
    lo ≤ b.opening ∧ b.opening < b.closing ∧ b.closing < hi := by
  induction h with
  | done => simp at hb
  | skip _ _ ih =>
      have := ih hb
      omega
  | @bracket i j hi inside bs _ _ hinside hrest ihinside ih =>
      have hij := hinside.le
      have hjhi := hrest.le
      simp only [withinAll_cons, List.mem_cons, List.mem_append] at hb
      rcases hb with rfl | hb | hb
      · dsimp only
        omega
      · have := ihinside hb
        omega
      · have := ih hb
        omega

/-- The comments of a bracket open and close, and what is inside it fills the stretch between. -/
theorem parts (h : Filled cs lo hi bs) {b : Bracket} (hb : b ∈ withinAll bs) :
    OpensAt cs b.opening ∧ ClosesAt cs b.closing ∧
      Filled cs (b.opening + 1) b.closing b.inside := by
  induction h with
  | done => simp at hb
  | skip _ _ ih => exact ih hb
  | bracket hi hj hinside _ ihinside ih =>
      simp only [withinAll_cons, List.mem_cons, List.mem_append] at hb
      rcases hb with rfl | hb | hb
      · exact ⟨hi, hj, hinside⟩
      · exact ihinside hb
      · exact ih hb

/-- Every opening comment of a stretch opens one of its brackets. -/
theorem exists_of_opensAt (h : Filled cs lo hi bs) {k : Nat} (hlo : lo ≤ k) (hhi : k < hi)
    (hk : OpensAt cs k) : ∃ b ∈ withinAll bs, b.opening = k := by
  induction h with
  | done => omega
  | skip hopen _ ih =>
      rcases Nat.eq_or_lt_of_le hlo with rfl | hlt
      · exact absurd hk hopen
      · exact ih hlt hhi
  | @bracket i j hi inside bs _ hj _ _ ihinside ih =>
      -- the comment opens the bracket itself, or stands inside it, or behind it
      rcases Nat.eq_or_lt_of_le hlo with rfl | hlt
      · exact ⟨⟨i, j, inside⟩, by simp, rfl⟩
      · rcases lt_trichotomy k j with hkj | rfl | hjk
        · obtain ⟨b, hb, hbk⟩ := ihinside hlt hkj
          exact ⟨b, by simp [hb], hbk⟩
        · exact absurd hk hj.not_opensAt
        · obtain ⟨b, hb, hbk⟩ := ih hjk hhi
          exact ⟨b, by simp [hb], hbk⟩

/-! ### Order -/

/-- Brackets side by side do not overlap. -/
theorem apart (h : Filled cs lo hi bs) : bs.Pairwise fun b c => b.closing < c.opening := by
  induction h with
  | done => exact .nil
  | skip _ _ ih => exact ih
  | @bracket i j hi inside bs _ _ _ hrest _ ih =>
      refine .cons ?_ ih
      intro c hc
      have := hrest.bounds (mem_withinAll hc)
      dsimp only
      omega

/-- Brackets are listed in the order of their opening comments. -/
theorem ordered (h : Filled cs lo hi bs) :
    (withinAll bs).Pairwise fun b c => b.opening < c.opening := by
  induction h with
  | done => simp
  | skip _ _ ih => exact ih
  | @bracket i j hi inside bs _ _ hinside hrest ihinside ih =>
      have hfirst : ∀ c ∈ withinAll inside ++ withinAll bs, i < c.opening := by
        intro c hc
        rcases List.mem_append.1 hc with hc | hc
        · have := hinside.bounds hc
          omega
        · have := hrest.bounds hc
          have := hinside.le
          omega
      rw [withinAll_cons, List.pairwise_cons, List.pairwise_append]
      refine ⟨hfirst, ihinside, ih, ?_⟩
      intro b hb c hc
      have := hinside.bounds hb
      have := hrest.bounds hc
      omega

/-- No comment bounds two brackets. -/
theorem nodup_bounds (h : Filled cs lo hi bs) :
    ((withinAll bs).flatMap fun b => [b.opening, b.closing]).Nodup := by
  -- all bounds of a stretch lie in it, so those of its parts are apart
  have hmem : ∀ {lo hi : Nat} {bs : List Bracket}, Filled cs lo hi bs →
      ∀ x ∈ (withinAll bs).flatMap fun b => [b.opening, b.closing], lo ≤ x ∧ x < hi := by
    intro lo hi bs h x hx
    obtain ⟨b, hb, hx⟩ := List.mem_flatMap.1 hx
    have := h.bounds hb
    simp only [List.mem_cons, List.not_mem_nil, or_false] at hx
    omega
  induction h with
  | done => simp
  | skip _ _ ih => exact ih
  | @bracket i j hi inside bs _ _ hinside hrest ihinside ih =>
      have hin := hmem hinside
      have hre := hmem hrest
      have hij := hinside.le
      rw [withinAll_cons, List.flatMap_cons, List.flatMap_append, List.cons_append, List.cons_append,
        List.nil_append, List.nodup_cons, List.nodup_cons, List.nodup_append, List.mem_cons,
        List.mem_append, List.mem_append]
      dsimp only
      refine ⟨?_, ?_, ihinside, ih, ?_⟩
      · rintro (hx | hx | hx)
        · omega
        · have := hin _ hx
          omega
        · have := hre _ hx
          omega
      · rintro (hx | hx)
        · have := hin _ hx
          omega
        · have := hre _ hx
          omega
      · rintro x hx _ hy rfl
        have := hin _ hx
        have := hre _ hy
        omega

/-! ### Brackets around brackets -/

/-- No bracket of a stretch lies around one at the top of it. -/
theorem not_encloses (h : Filled cs lo hi bs) {b c : Bracket} (hb : b ∈ withinAll bs)
    (hc : c ∈ bs) : ¬ Encloses b.pair c.pair := by
  simp only [Encloses, pair]
  induction h with
  | done => cases hc
  | skip _ _ ih => exact ih hb hc
  | @bracket i j hi inside bs _ _ hinside hrest _ ih =>
      simp only [withinAll_cons, List.mem_cons, List.mem_append] at hb
      rcases List.mem_cons.1 hc with rfl | hc
      · rcases hb with rfl | hb | hb
        · dsimp only
          omega
        · have := hinside.bounds hb
          dsimp only
          omega
        · have := hrest.bounds hb
          have := hinside.le
          dsimp only
          omega
      · have hcbounds := hrest.bounds (mem_withinAll hc)
        rcases hb with rfl | hb | hb
        · dsimp only
          omega
        · have := hinside.bounds hb
          omega
        · exact ih hb hc

/-- **A bracket lies directly inside the innermost bracket around it.** -/
theorem innermost (h : Filled cs lo hi bs) {b c d : Bracket} (hb : b ∈ withinAll bs)
    (hc : c ∈ b.inside) (hd : d ∈ withinAll bs) (hdc : Encloses d.pair c.pair) :
    d.pair = b.pair ∨ Encloses d.pair b.pair := by
  have hopening : d.opening < c.opening := hdc.1
  have hclosing : c.closing < d.closing := hdc.2
  induction h with
  | done => simp at hb
  | skip _ _ ih => exact ih hb hd
  | @bracket i j hi inside bs _ _ hinside hrest ihinside ih =>
      have hij := hinside.le
      simp only [withinAll_cons, List.mem_cons, List.mem_append] at hb hd
      rcases hb with rfl | hb | hb
      · have hcbounds := hinside.bounds (mem_withinAll hc)
        rcases hd with rfl | hd | hd
        · exact .inl rfl
        · exact absurd hdc (hinside.not_encloses hd hc)
        · have := hrest.bounds hd
          omega
      · have hbbounds := hinside.bounds hb
        have hcbounds := (hinside.parts hb).2.2.bounds (mem_withinAll hc)
        rcases hd with rfl | hd | hd
        · exact .inr ⟨hbbounds.1, hbbounds.2.2⟩
        · exact ihinside hb hd
        · have := hrest.bounds hd
          omega
      · have hbbounds := hrest.bounds hb
        have hcbounds := (hrest.parts hb).2.2.bounds (mem_withinAll hc)
        rcases hd with rfl | hd | hd
        · dsimp only at hclosing
          omega
        · have := hinside.bounds hd
          omega
        · exact ih hb hd

end Filled

end Bracket

end SchemaScope
