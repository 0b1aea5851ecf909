/-
**Regions are matched comments.**

The scan keeps the open regions on a stack, puts a region that is closed into the one below it, and
drops what is open at the end.  After any number of comments its regions are those of a forest of
brackets: the closed ones of a stretch from the start, and those inside each open region of the
stretch behind its opening comment.  The open comments are exactly the unmatched ones, so what is
left at the end is what matching comments says.

Main definitions:

* `Region.Opened` — where the open comments stand, and the brackets inside them;
* `Region.Tracks` — a scan after some comments, in terms of brackets;
* `Region.IsMatching` — a forest of brackets holds the matched pairs that are reported, as they lie
  inside one another.

Main results:

* `Region.Opened.matches_iff` — a closing comment matches the innermost open comment;
* `Region.Tracks.step`, `Region.exists_tracks` — what one comment does to a scan, and all of them;
* `Region.Tracks.isMatching` — **the brackets outside all open regions make up the matching**.
-/

import SchemaScope.Proofs.Region.Brackets

set_option autoImplicit false

namespace SchemaScope.Region

open SchemaScope.Bracket

/-! ### Matched comments -/

/-- The brackets are the pairs that closing comments before position `n` match. -/
def Settled (cs : Comments) (n : Nat) (bs : List Bracket) : Prop :=
  ∀ i j, j < n → (Matches cs i j ↔ (i, j) ∈ bs.map pair)

/-- One comment more adds the pair that it matches, if any. -/
theorem Settled.succ {cs : Comments} {n : Nat} {bs bs' : List Bracket} (h : Settled cs n bs)
    (hlt : ∀ b ∈ bs, b.closing < n)
    (hbs : ∀ i j, (i, j) ∈ bs'.map pair ↔ (i, j) ∈ bs.map pair ∨ (j = n ∧ Matches cs i j)) :
    Settled cs (n + 1) bs' := by
  intro i j hj
  rw [hbs]
  rcases Nat.lt_succ_iff_lt_or_eq.1 hj with hlt' | rfl
  · rw [h i j hlt']
    constructor
    · exact .inl
    · rintro (hmem | ⟨rfl, -⟩)
      · exact hmem
      · omega
  · constructor
    · intro hmatch
      exact .inr ⟨rfl, hmatch⟩
    · rintro (hmem | ⟨-, hmatch⟩)
      · obtain ⟨b, hb, hpair⟩ := List.mem_map.1 hmem
        have hclosing : b.closing = j := congrArg Prod.snd hpair
        have := hlt b hb
        omega
      · exact hmatch

/-! ### Open comments -/

/-- All brackets inside the open regions and outside them. -/
def completed (closed : List Bracket) : List (Nat × List Bracket) → List Bracket
  | [] => withinAll closed
  | (_, inside) :: outer => withinAll inside ++ completed closed outer

/-- Before position `n` there are closed brackets, then the open comments, innermost first, each with
the brackets between it and what comes next. -/
inductive Opened (cs : Comments) (closed : List Bracket) : Nat → List (Nat × List Bracket) → Prop
  | bottom {n : Nat} : Filled cs 0 n closed → Opened cs closed n []
  | push {k n : Nat} {inside : List Bracket} {outer : List (Nat × List Bracket)} : OpensAt cs k →
      Filled cs (k + 1) n inside → Opened cs closed k outer →
      Opened cs closed n ((k, inside) :: outer)

namespace Opened

variable {cs : Comments} {closed : List Bracket} {n : Nat} {opened : List (Nat × List Bracket)}

theorem lt_of_mem (h : Opened cs closed n opened) {k : Nat} (hk : k ∈ opened.map Prod.fst) :
    OpensAt cs k ∧ k < n := by
  induction h with
  | bottom => simp at hk
  | push hopen hinside _ ih =>
      have hlt := hinside.le
      rcases List.mem_cons.1 hk with rfl | hk
      · exact ⟨hopen, hlt⟩
      · obtain ⟨hopen', hlt'⟩ := ih hk
        exact ⟨hopen', by omega⟩

/-- The innermost open comment is the last one. -/
theorem le_head (h : Opened cs closed n opened) {i k : Nat}
    (hi : (opened.map Prod.fst).head? = some i) (hk : k ∈ opened.map Prod.fst) : k ≤ i := by
  cases h with
  | bottom => simp at hi
  | push _ _ houter =>
      rw [List.map_cons, List.head?_cons, Option.some.injEq] at hi
      subst hi
      rcases List.mem_cons.1 hk with rfl | hk
      · exact le_rfl
      · exact (houter.lt_of_mem hk).2.le

theorem closing_lt (h : Opened cs closed n opened) {b : Bracket} (hb : b ∈ completed closed opened) :
    b.opening < b.closing ∧ b.closing < n := by
  induction h with
  | bottom hclosed => exact (hclosed.bounds hb).2
  | push _ hinside _ ih =>
      rcases List.mem_append.1 hb with hb | hb
      · exact (hinside.bounds hb).2
      · have := ih hb
        have := hinside.le
        omega

/-- An open comment opens no bracket yet. -/
theorem opening_ne (h : Opened cs closed n opened) {k : Nat} (hk : k ∈ opened.map Prod.fst)
    {b : Bracket} (hb : b ∈ completed closed opened) : b.opening ≠ k := by
  induction h with
  | bottom => simp at hk
  | push _ hinside houter ih =>
      rcases List.mem_append.1 hb with hb | hb
      · have hbounds := hinside.bounds hb
        rcases List.mem_cons.1 hk with rfl | hk
        · omega
        · have := (houter.lt_of_mem hk).2
          omega
      · have hbounds := houter.closing_lt hb
        rcases List.mem_cons.1 hk with rfl | hk
        · omega
        · exact ih hk hb

/-- Every opening comment is open or opens a bracket. -/
theorem open_or_completed (h : Opened cs closed n opened) {k : Nat} (hlt : k < n)
    (hk : OpensAt cs k) :
    k ∈ opened.map Prod.fst ∨ ∃ b ∈ completed closed opened, b.opening = k := by
  induction h with
  | bottom hclosed => exact .inr (hclosed.exists_of_opensAt (Nat.zero_le k) hlt hk)
  | @push l n inside outer _ hinside _ ih =>
      rcases lt_trichotomy k l with hkl | rfl | hlk
      · rcases ih hkl with hk | ⟨b, hb, hbk⟩
        · exact .inl (List.mem_cons_of_mem _ hk)
        · exact .inr ⟨b, List.mem_append_right _ hb, hbk⟩
      · exact .inl List.mem_cons_self
      · obtain ⟨b, hb, hbk⟩ := hinside.exists_of_opensAt hlk hlt hk
        exact .inr ⟨b, List.mem_append_left _ hb, hbk⟩

/-- A bracket is outside all open regions, or behind an open comment. -/
theorem closed_or_behind (h : Opened cs closed n opened) {b : Bracket}
    (hb : b ∈ completed closed opened) :
    b ∈ withinAll closed ∨ ∃ k ∈ opened.map Prod.fst, k < b.opening := by
  induction h with
  | bottom => exact .inl hb
  | @push l n inside outer _ hinside _ ih =>
      rcases List.mem_append.1 hb with hb | hb
      · exact .inr ⟨l, List.mem_cons_self, (hinside.bounds hb).1⟩
      · rcases ih hb with hb | ⟨k, hk, hlt⟩
        · exact .inl hb
        · exact .inr ⟨k, List.mem_cons_of_mem _ hk, hlt⟩

/-- What is closed stands before all that is open. -/
theorem exists_filled (h : Opened cs closed n opened) :
    ∃ hi ≤ n, Filled cs 0 hi closed ∧ ∀ k ∈ opened.map Prod.fst, hi ≤ k := by
  induction h with
  | bottom hclosed => exact ⟨_, le_rfl, hclosed, by simp⟩
  | @push l n inside outer _ hinside _ ih =>
      obtain ⟨hi, hle, hclosed, hall⟩ := ih
      have := hinside.le
      refine ⟨hi, by omega, hclosed, ?_⟩
      intro k hk
      rcases List.mem_cons.1 hk with rfl | hk
      · exact hle
      · exact hall k hk

theorem mem_completed {b : Bracket} (hb : b ∈ withinAll closed)
    (opened : List (Nat × List Bracket)) : b ∈ completed closed opened := by
  induction opened with
  | nil => exact hb
  | cons o outer ih => exact List.mem_append_right _ ih

/-! ### One more comment -/

/-- A comment that opens nothing and closes nothing. -/
theorem pass (h : Opened cs closed n opened) (hn : ¬ OpensAt cs n) :
    Opened cs closed (n + 1) opened := by
  have hone : Filled cs n (n + 1) [] := .skip hn .done
  cases h with
  | bottom hclosed => exact .bottom (by simpa using hclosed.append hone)
  | push hk hinside houter => exact .push hk (by simpa using hinside.append hone) houter

/-- A comment that closes the last open region. -/
theorem close_outermost {i : Nat} {inside : List Bracket}
    (h : Opened cs closed n [(i, inside)]) (hn : ClosesAt cs n) :
    Opened cs (closed ++ [⟨i, n, inside⟩]) (n + 1) [] := by
  cases h with
  | push hi hinside houter =>
      cases houter with
      | bottom hclosed => exact .bottom (hclosed.append (.bracket hi hn hinside .done))

/-- A comment that closes a region inside another one. -/
theorem close_inner {i k : Nat} {inside between : List Bracket} {outer : List (Nat × List Bracket)}
    (h : Opened cs closed n ((i, inside) :: (k, between) :: outer)) (hn : ClosesAt cs n) :
    Opened cs closed (n + 1) ((k, between ++ [⟨i, n, inside⟩]) :: outer) := by
  cases h with
  | push hi hinside houter =>
      cases houter with
      | push hk hbetween houter =>
          exact .push hk (hbetween.append (.bracket hi hn hinside .done)) houter

/-! ### Matches -/

section Settled

variable (h : Opened cs closed n opened) (hm : Settled cs n (completed closed opened))

include h hm

/-- An opening comment has been matched if it is not open any more. -/
theorem exists_matches_iff {k : Nat} (hlt : k < n) (hk : OpensAt cs k) :
    (∃ l, ∃ _ : l < n, Matches cs k l) ↔ k ∉ opened.map Prod.fst := by
  constructor
  · rintro ⟨l, hl, hmatch⟩ hmem
    obtain ⟨b, hb, hpair⟩ := List.mem_map.1 ((hm k l hl).1 hmatch)
    exact h.opening_ne hmem hb (congrArg Prod.fst hpair)
  · intro hmem
    obtain ⟨b, hb, rfl⟩ := (h.open_or_completed hlt hk).resolve_left hmem
    have hclosing := (h.closing_lt hb).2
    exact ⟨b.closing, hclosing, (hm _ _ hclosing).2 (List.mem_map_of_mem hb)⟩

/-- A closing comment matches the innermost open comment. -/
theorem matches_iff (hn : ClosesAt cs n) {i : Nat} :
    Matches cs i n ↔ (opened.map Prod.fst).head? = some i := by
  rw [Matches]
  constructor
  · rintro ⟨hi, -, hlt, hunmatched, hnearest⟩
    have hmem : i ∈ opened.map Prod.fst := by
      by_contra hmem
      obtain ⟨l, hl, hmatch⟩ := (h.exists_matches_iff hm hlt hi).2 hmem
      exact hunmatched l hl hmatch
    cases hhead : (opened.map Prod.fst).head? with
    | none =>
        rw [List.head?_eq_none_iff.1 hhead] at hmem
        cases hmem
    | some k =>
        have hk := List.mem_of_mem_head? hhead
        obtain ⟨hkopen, hkn⟩ := h.lt_of_mem hk
        -- an open comment between would be unmatched
        have hnot : ¬ i < k := fun hik =>
          (h.exists_matches_iff hm hkn hkopen).1 (hnearest k hik hkn hkopen) hk
        have hle := h.le_head hhead hmem
        rw [Option.some.injEq]
        omega
  · intro hhead
    have hmem := List.mem_of_mem_head? hhead
    obtain ⟨hi, hlt⟩ := h.lt_of_mem hmem
    refine ⟨hi, hn, hlt, ?_, ?_⟩
    · intro l hl hmatch
      exact (h.exists_matches_iff hm hlt hi).1 ⟨l, hl, hmatch⟩ hmem
    · intro k hik hkn hk
      refine (h.exists_matches_iff hm hkn hk).2 fun hkmem => ?_
      have hle := h.le_head hhead hkmem
      omega

end Settled

end Opened

/-! ### Steps of a scan -/

/-- An open region is named and placed by its opening comment, and holds the regions of the brackets
behind it. -/
structure Underway (cs : Comments) (r : Region) (o : Nat × List Bracket) : Prop where
  opening : cs[o.1]? = some (some (.opens r.name), r.location)
  inside : Depicts cs r.children o.2

/-- The regions of a scan before position `n` are those of brackets, and these are the matched
pairs. -/
structure Tracks (cs : Comments) (n : Nat) (s : Scan) (opened : List (Nat × List Bracket))
    (closed : List Bracket) : Prop where
  layout : Opened cs closed n opened
  underway : List.Forall₂ (Underway cs) s.opened opened
  depicts : Depicts cs s.closed closed
  settled : Settled cs n (completed closed opened)

namespace Tracks

variable {cs : Comments} {n : Nat} {s : Scan} {opened : List (Nat × List Bracket)}
  {closed : List Bracket}

theorem start (cs : Comments) : Tracks cs 0 Scan.start [] [] where
  layout := .bottom .done
  underway := .nil
  depicts := .nil
  settled := by
    intro i j hj
    omega

/-- A comment that matches nothing settles nothing. -/
theorem settled_succ (h : Tracks cs n s opened closed) (hn : ∀ i, ¬ Matches cs i n) :
    Settled cs (n + 1) (completed closed opened) := by
  refine h.settled.succ (fun b hb => (h.layout.closing_lt hb).2) ?_
  intro i j
  constructor
  · exact .inl
  · rintro (hmem | ⟨rfl, hmatch⟩)
    · exact hmem
    · exact absurd hmatch (hn i)

/-- A comment that matches the innermost open comment adds their bracket. -/
theorem settled_close {i : Nat} {inside : List Bracket}
    (h : Tracks cs n s ((i, inside) :: opened) closed) (hn : ClosesAt cs n) {bs : List Bracket}
    (hbs : bs.Perm (⟨i, n, inside⟩ :: completed closed ((i, inside) :: opened))) :
    Settled cs (n + 1) bs := by
  refine h.settled.succ (fun b hb => (h.layout.closing_lt hb).2) ?_
  intro k j
  have hmatch : j = n ∧ Matches cs k j ↔ (k, j) = (i, n) := by
    rw [Prod.mk.injEq, and_comm]
    refine and_congr_left ?_
    rintro rfl
    rw [h.layout.matches_iff h.settled hn, List.map_cons, List.head?_cons, Option.some.injEq,
      eq_comm]
  rw [(hbs.map pair).mem_iff, List.map_cons, List.mem_cons, hmatch, or_comm]
  rfl

theorem pass (h : Tracks cs n s opened closed) (hopen : ¬ OpensAt cs n)
    (hn : ∀ i, ¬ Matches cs i n) : Tracks cs (n + 1) s opened closed where
  layout := h.layout.pass hopen
  underway := h.underway
  depicts := h.depicts
  settled := h.settled_succ hn

theorem push (h : Tracks cs n s opened closed) {name : String} {location : Location}
    (hn : cs[n]? = some (some (.opens name), location)) :
    Tracks cs (n + 1) { s with opened := ⟨name, location, []⟩ :: s.opened } ((n, []) :: opened)
      closed where
  layout := .push ⟨name, location, hn⟩ .done h.layout
  underway := .cons ⟨hn, .nil⟩ h.underway
  depicts := h.depicts
  settled := by
    refine h.settled_succ fun i hmatch => ?_
    exact hmatch.closesAt.not_opensAt ⟨name, location, hn⟩

/-- The last open region is closed, and put behind the closed ones. -/
theorem close_outermost {r : Region} {shut : List Region} {i : Nat} {inside : List Bracket}
    (h : Tracks cs n ⟨[r], shut⟩ [(i, inside)] closed) {location : Location}
    (hn : cs[n]? = some (some .closes, location)) :
    Tracks cs (n + 1) ⟨[], shut ++ [{ r with location := r.location.spanTo location }]⟩ []
      (closed ++ [⟨i, n, inside⟩]) where
  layout := h.layout.close_outermost ⟨location, hn⟩
  underway := .nil
  depicts := by
    obtain ⟨hr, -⟩ := List.forall₂_cons.1 h.underway
    exact h.depicts.append (.cons hr.opening hn hr.inside .nil)
  settled := by
    refine h.settled_close ⟨location, hn⟩ ?_
    simp only [completed, withinAll_append, withinAll_cons, withinAll_nil, List.append_nil]
    exact List.perm_append_comm

/-- An open region is closed, and put into the one below it. -/
theorem close_inner {r parent : Region} {rest shut : List Region} {i k : Nat}
    {inside between : List Bracket} {outer : List (Nat × List Bracket)}
    (h : Tracks cs n ⟨r :: parent :: rest, shut⟩ ((i, inside) :: (k, between) :: outer) closed)
    {location : Location} (hn : cs[n]? = some (some .closes, location)) :
    Tracks cs (n + 1)
      ⟨{ parent with children :=
          parent.children ++ [{ r with location := r.location.spanTo location }] } :: rest, shut⟩
      ((k, between ++ [⟨i, n, inside⟩]) :: outer) closed where
  layout := h.layout.close_inner ⟨location, hn⟩
  underway := by
    obtain ⟨hr, houter⟩ := List.forall₂_cons.1 h.underway
    obtain ⟨hparent, hrest⟩ := List.forall₂_cons.1 houter
    refine .cons ⟨hparent.opening, ?_⟩ hrest
    exact hparent.inside.append (.cons hr.opening hn hr.inside .nil)
  depicts := h.depicts
  settled := by
    refine h.settled_close ⟨location, hn⟩ ?_
    simp only [completed, withinAll_append, withinAll_cons, withinAll_nil, List.append_nil]
    rw [← List.append_assoc (withinAll inside), ← List.cons_append]
    exact List.perm_append_comm.append_right _

/-- What one comment does to a scan. -/
theorem step (h : Tracks cs n s opened closed) {c : Option Marker × Location}
    (hc : cs[n]? = some c) : ∃ opened' closed', Tracks cs (n + 1) (s.step c) opened' closed' := by
  obtain ⟨marker, location⟩ := c
  cases marker with
  | none =>
      refine ⟨opened, closed, h.pass ?_ fun i hmatch => ?_⟩
      · rintro ⟨name, location', hn⟩
        rw [hc] at hn
        cases hn
      · obtain ⟨location', hn⟩ := hmatch.closesAt
        rw [hc] at hn
        cases hn
  | some marker =>
      cases marker with
      | opens name => exact ⟨_, closed, h.push hc⟩
      | closes =>
          have hn : ClosesAt cs n := ⟨location, hc⟩
          obtain ⟨live, shut⟩ := s
          -- the open regions of the scan and the open comments are equally many
          have hlive := h.underway
          cases hlive with
          | nil =>
              refine ⟨[], closed, h.pass hn.not_opensAt fun i hmatch => ?_⟩
              simpa using (h.layout.matches_iff h.settled hn).1 hmatch
          | cons _ houter =>
              cases houter with
              | nil => exact ⟨[], _, h.close_outermost hc⟩
              | cons _ _ => exact ⟨_, closed, h.close_inner hc⟩

end Tracks

/-- What all comments do to a scan. -/
theorem exists_tracks (cs : Comments) {n : Nat} (hn : n ≤ cs.length) :
    ∃ opened closed, Tracks cs n ((cs.take n).foldl Scan.step Scan.start) opened closed := by
  induction n with
  | zero => exact ⟨[], [], .start cs⟩
  | succ n ih =>
      obtain ⟨opened, closed, h⟩ := ih (by omega)
      have hc : cs[n]? = some cs[n] := List.getElem?_eq_getElem hn
      rw [List.take_add_one, hc, Option.toList_some, List.foldl_append, List.foldl_cons,
        List.foldl_nil]
      exact h.step hc

/-! ### The forest of a scan -/

/-- The forest holds the pairs that are reported, each once and in source order.  What stands at the
top has no matched pair around it, and what stands inside a bracket has that bracket as the innermost
one around it. -/
structure IsMatching (cs : Comments) (forest : List Bracket) : Prop where
  mem_iff : ∀ i j, (i, j) ∈ (withinAll forest).map pair ↔ Reported cs i j
  ordered : (withinAll forest).Pairwise fun b c => b.opening < c.opening
  nodup_bounds : ((withinAll forest).flatMap fun b => [b.opening, b.closing]).Nodup
  top : ∀ b ∈ forest, ∀ p : Nat × Nat, Matches cs p.1 p.2 → ¬ Encloses p b.pair
  parent : ∀ b ∈ withinAll forest, ∀ c ∈ b.inside, Innermost cs b.pair c.pair
  apart : forest.Pairwise fun b c => b.closing < c.opening
  apart_inside : ∀ b ∈ withinAll forest, b.inside.Pairwise fun c d => c.closing < d.opening

namespace Tracks

variable {cs : Comments} {s : Scan} {opened : List (Nat × List Bracket)} {closed : List Bracket}

/-- An opening comment is matched in the end if it is not left open. -/
theorem exists_matches_iff (h : Tracks cs cs.length s opened closed) {k : Nat}
    (hk : OpensAt cs k) : (∃ l, Matches cs k l) ↔ k ∉ opened.map Prod.fst := by
  rw [← h.layout.exists_matches_iff h.settled hk.lt_length hk]
  constructor
  · rintro ⟨l, hmatch⟩
    exact ⟨l, hmatch.closesAt.lt_length, hmatch⟩
  · rintro ⟨l, -, hmatch⟩
    exact ⟨l, hmatch⟩

/-- The brackets outside all open regions are those that are reported. -/
theorem mem_closed_iff (h : Tracks cs cs.length s opened closed) (i j : Nat) :
    (i, j) ∈ (withinAll closed).map pair ↔ Reported cs i j := by
  constructor
  · intro hmem
    obtain ⟨b, hb, hpair⟩ := List.mem_map.1 hmem
    obtain ⟨rfl, rfl⟩ := Prod.mk.inj hpair
    have hbcompleted := Opened.mem_completed hb opened
    obtain ⟨hi, -, hfilled, hopened⟩ := h.layout.exists_filled
    refine ⟨?_, ?_⟩
    · exact (h.settled _ _ (h.layout.closing_lt hbcompleted).2).2 (List.mem_map_of_mem hbcompleted)
    · intro k hk hkopen
      -- whatever is left open stands behind all that is closed
      refine (h.exists_matches_iff hkopen).2 fun hmem => ?_
      have hbounds := hfilled.bounds hb
      have := hopened k hmem
      omega
  · rintro ⟨hmatch, hearlier⟩
    have hmem := (h.settled i j hmatch.closesAt.lt_length).1 hmatch
    obtain ⟨b, hb, hpair⟩ := List.mem_map.1 hmem
    rcases h.layout.closed_or_behind hb with hb | ⟨k, hk, hlt⟩
    · exact List.mem_map.2 ⟨b, hb, hpair⟩
    · obtain ⟨rfl, rfl⟩ := Prod.mk.inj hpair
      have hkopen := (h.layout.lt_of_mem hk).1
      exact absurd hk ((h.exists_matches_iff hkopen).1 (hearlier k hlt hkopen))

/-- A matched pair around a bracket outside all open regions is such a bracket as well. -/
theorem exists_of_encloses (h : Tracks cs cs.length s opened closed) {p : Nat × Nat} {b : Bracket}
    (hb : b ∈ withinAll closed) (hp : Matches cs p.1 p.2) (hpb : Encloses p b.pair) :
    ∃ d ∈ withinAll closed, d.pair = p := by
  have hearlier := ((h.mem_closed_iff b.opening b.closing).1 (List.mem_map_of_mem hb)).earlier
  refine List.mem_map.1 ((h.mem_closed_iff p.1 p.2).2 ⟨hp, ?_⟩)
  intro k hk
  exact hearlier k (lt_trans hk hpb.1)

/-- The brackets outside all open regions in the end make up the matching. -/
theorem isMatching (h : Tracks cs cs.length s opened closed) : IsMatching cs closed := by
  obtain ⟨hi, -, hfilled, -⟩ := h.layout.exists_filled
  refine ⟨h.mem_closed_iff, hfilled.ordered, hfilled.nodup_bounds, ?_, ?_, hfilled.apart, ?_⟩
  · intro b hb p hp hpb
    obtain ⟨d, hd, rfl⟩ := h.exists_of_encloses (mem_withinAll hb) hp hpb
    exact hfilled.not_encloses hd hb hpb
  · intro b hb c hc
    have hcbounds := (hfilled.parts hb).2.2.bounds (mem_withinAll hc)
    refine ⟨?_, ⟨hcbounds.1, hcbounds.2.2⟩, ?_⟩
    · exact ((h.mem_closed_iff _ _).1 (List.mem_map_of_mem hb)).pair
    · intro r hr hrc
      obtain ⟨d, hd, rfl⟩ := h.exists_of_encloses (mem_withinAll_of_inside hb hc) hr hrc
      exact hfilled.innermost hb hc hd hrc
  · intro b hb
    exact (hfilled.parts hb).2.2.apart

end Tracks

end SchemaScope.Region
