/-
**What readings yield.**

A production of the grammar reads lexemes and other categories and builds a node around them.  What
it yields is stated as a triple: from a tidy reader, a reading that succeeds leaves a tidy reader
and a value as it should be.  Nothing is said of a reading that fails.  This module has the triples
of the operations that productions are written with, so that those of the productions follow from
them step by step.

Main definitions:

* `Node.Fits` — what may be put around some children;
* `Reader.Tidy` — the marks of a reader fit the text, and the comments it has passed are comments;
* `Source`, `Parse.Yields` — the text that is read, and what a reading yields, if it succeeds;
* `Grammar.Conforms` — a grammar whose categories yield nodes that conform.

Main results:

* `Parse.yields_iff` — triples in terms of runs;
* `Parse.leaf_yields`, `Parse.token_yields`, `Parse.enclose_yields` — single nodes;
* `Parse.iterate_yields` — what a repetition keeps;
* `Parse.commaList_yields`, `Parse.separated_yields` — lists.
-/

import SchemaScope.Proofs.Script.Shape

set_option autoImplicit false
set_option mvcgen.warning false

namespace SchemaScope.Script

open Std.Do

variable {source : List Char}

namespace Node

/-- A node of the given kind may be put around the given children. -/
inductive Fits (source : List Char) : Kind → List Node → Prop
  | plain {kind : Kind} {children : List Node} (hkind : kind.isPlain = true)
      (hchildren : Parts source children) : Fits source kind children
  | parenthesized {opening e closing : Node} (hopening : opening.IsMark source)
      (he : e.Reading source) (hclosing : closing.IsMark source) :
      Fits source .parenthesized [opening, e, closing]
  | pair {key colon value : Node} (hkey : key.Reading source) (hcolon : colon.IsMark source)
      (hvalue : value.Reading source) :
      Fits source .pair [key.inRole .key, colon, value.inRole .value]
  | call {base : Node} {rest : List Node} (hbase : base.Reading source)
      (hrest : Parts source rest) : Fits source .call (base.inRole .callee :: rest)

attribute [grind .] Fits.plain Fits.parenthesized Fits.pair Fits.call

theorem Fits.part {kind : Kind} {children : List Node} (h : Fits source kind children) :
    ∀ c ∈ children, c.ConformsThroughout source := by
  cases h with
  | plain _ hchildren => exact fun c hc => (hchildren c hc).conforms
  | parenthesized hopening he hclosing => simp [hopening.conforms, he.conforms, hclosing.conforms]
  | pair hkey hcolon hvalue =>
      simp [hkey.conforms.withRole, hcolon.conforms, hvalue.conforms.withRole, Node.inRole]
  | call hbase hrest =>
      rw [List.forall_mem_cons]
      exact ⟨hbase.conforms.withRole _, fun c hc => (hrest c hc).conforms⟩

/-- **A node around children that fit conforms wherever it is placed.** -/
theorem Fits.conforms {kind : Kind} {role : Option Role} {location : Location} {text : String}
    {children : List Node} (h : Fits source kind children) (hplaced : location.Placed source) :
    Conforms source ⟨kind, role, location, text, children⟩ := by
  cases h with
  | plain hkind hchildren =>
      exact conforms_of_plain hkind (fun c hc => (hchildren c hc).role) hplaced
  | @parenthesized opening e closing hopening he hclosing =>
      have hsignificant : significant ⟨.parenthesized, role, location, text, [opening, e, closing]⟩
          = [e] := by
        have hfilter : [opening, e, closing].filter isSignificant = [e] := by
          simp [hopening.not_significant, he.significant, hclosing.not_significant]
        exact hfilter
      refine ⟨⟨fun _ => ⟨e, hsignificant⟩, ?_, ?_⟩, ?_, ?_, ?_, ?_, hplaced⟩ <;>
        simp [child?, hopening.role, he.role, hclosing.role, Kind.isBare]
  | @pair key colon value hkey hcolon hvalue =>
      have hroles : [key.inRole .key, colon, value.inRole .value].filter isSignificant =
          [key.inRole .key, value.inRole .value] := by
        have hkey' : (key.inRole .key).isSignificant = true := hkey.significant
        have hvalue' : (value.inRole .value).isSignificant = true := hvalue.significant
        simp [hkey', hcolon.not_significant, hvalue']
      refine ⟨⟨?_, ?_, ?_⟩, fun _ => congrArg (List.map Node.role) hroles, ?_, ?_, ?_, hplaced⟩ <;>
        simp [child?, hcolon.role, Node.inRole, Kind.isBare]
  | call hbase hrest =>
      refine ⟨⟨?_, ?_, ?_⟩, ?_, ?_, ?_, ?_, hplaced⟩ <;> simp [Node.inRole, Kind.isBare]

theorem Fits.reading {kind : Kind} {children : List Node} {location : Location} {text : String}
    (h : Fits source kind children) (hplaced : location.Placed source) :
    Reading source ⟨kind, none, location, text, children⟩ where
  conforms := conformsThroughout_iff.2 ⟨h.conforms hplaced, h.part⟩
  role := rfl
  significant := by
    cases h with
    | plain hkind => cases kind <;> simp_all [isSignificant, Kind.isPlain, Kind.isNamed]
    | parenthesized | pair | call => rfl

/-- A node of the given kind without children. -/
structure IsLeaf (source : List Char) (kind : Kind) (n : Node) : Prop where
  kind : n.kind = kind
  role : n.role = none
  children : n.children = []
  placed : n.location.Placed source

@[grind →] theorem IsLeaf.reading {kind : Kind} {n : Node} (h : n.IsLeaf source kind)
    (hkind : kind.mayBeEmpty = true) : n.Reading source := by
  obtain ⟨kind, role, location, text, children⟩ := n
  obtain ⟨rfl, rfl, rfl, hplaced⟩ := h
  have hconforms : Conforms source ⟨kind, none, location, text, []⟩ := by
    refine conforms_of_isEmpty rfl ⟨?_, ?_⟩ hplaced
    all_goals
      rintro rfl
      simp [Kind.mayBeEmpty] at hkind
  refine ⟨conformsThroughout_iff.2 ⟨hconforms, by simp⟩, rfl, ?_⟩
  cases kind <;> simp_all [isSignificant, Kind.mayBeEmpty, Kind.isNamed]

@[grind →] theorem IsLeaf.isMark {word : String} {n : Node} (h : n.IsLeaf source (.token word)) :
    n.IsMark source :=
  ⟨by rw [h.kind]; rfl, h.role, h.children, h.placed⟩

/-- A leaf that was read as a word may turn out to be a keyword. -/
@[grind .] theorem IsLeaf.part_asMark {kind : Kind} {n : Node} (h : n.IsLeaf source kind)
    (word : String) : Part source ⟨.token word, n.role, n.location, n.text, n.children⟩ := by
  have hmark : IsMark source ⟨.token word, n.role, n.location, n.text, n.children⟩ :=
    ⟨rfl, h.role, h.children, h.placed⟩
  exact hmark.part

end Node

/-! ### Tidy readers -/

/-- The marks of the reader are where its characters begin, and the comments it has passed are
comments. -/
structure Reader.Tidy (source : List Char) (r : Reader) : Prop where
  mark : r.mark.Reaches source r.rest
  last : r.last.Reaches source r.gap
  comments : ∀ c ∈ r.comments, c.IsComment source

namespace Reader

theorem isComment_commentAt {m : Mark} {cs : List Char} (h : m.Reaches source cs) (width : Nat) :
    (Trivia.commentAt m cs width).IsComment source :=
  ⟨rfl, rfl, rfl, h.placed _⟩

/-- Passing over blanks and comments keeps the marks and collects comments. -/
theorem skip_spec {comments : List Node} {lineBreak : Bool} {m : Mark} {inside : Nat}
    {cs : List Char} (hm : m.Reaches source cs) (hcomments : ∀ c ∈ comments, c.IsComment source) :
    (Trivia.skip comments lineBreak m inside cs).mark.Reaches source
        (Trivia.skip comments lineBreak m inside cs).rest ∧
      ∀ c ∈ (Trivia.skip comments lineBreak m inside cs).comments, c.IsComment source := by
  fun_induction Trivia.skip comments lineBreak m inside cs with
  | case1 => exact ⟨hm, hcomments⟩
  | case2 _ _ _ _ _ _ ih => exact ih hm.advance hcomments
  | case3 _ _ _ _ _ _ ih => exact ih hm.advance hcomments
  | case4 _ _ _ _ _ _ w _ ih =>
      exact ih hm.advance (List.forall_mem_cons.2 ⟨isComment_commentAt hm _, hcomments⟩)
  | case5 => exact ⟨hm, hcomments⟩

theorem tidy_settle {comments : List Node} {m : Mark} {cs : List Char} (hm : m.Reaches source cs)
    (hcomments : ∀ c ∈ comments, c.IsComment source) : (settle comments m cs).Tidy source := by
  have hskip := @skip_spec source comments false m 0 cs hm hcomments
  exact ⟨hskip.1, hm, hskip.2⟩

theorem tidy_start (source : List Char) : (start source).Tidy source :=
  tidy_settle ⟨[], rfl, rfl⟩ (by simp)

theorem Tidy.consume {r : Reader} (h : r.Tidy source) (width : Nat) :
    (r.consume width).Tidy source :=
  tidy_settle (h.mark.drop width) h.comments

end Reader

/-! ### Triples -/

/-- The text that is being read, fixed throughout. -/
class Source where
  chars : List Char

namespace Parse

open Source (chars)

variable [Source]

/-- From a tidy reader, a reading that succeeds leaves a tidy reader and a value as described. -/
abbrev Yields {α : Type} (p : Parse α) (Q : α → Prop) : Prop :=
  ⦃fun r => ⌜r.Tidy chars⌝⦄ p ⦃⇓? a r => ⌜r.Tidy chars ∧ Q a⌝⦄

omit [Source] in
theorem wp_apply {α : Type} (p : Parse α) (Q : PostCond α (.arg Reader (.except PUnit .pure)))
    (r : Reader) :
    (wp p).apply Q r = match p.run r with
      | some (a, r') => Q.1 a r'
      | none => Q.2.1 () := by
  have hrun : (wp p).apply Q r = (wp (p.run r)).apply (fun x => Q.1 x.1 x.2, Q.2) := rfl
  rw [hrun]
  cases p.run r <;> rfl

/-- Triples in terms of runs. -/
theorem yields_iff {α : Type} {p : Parse α} {Q : α → Prop} :
    Yields p Q ↔
      ∀ r a r', r.Tidy chars → p.run r = some (a, r') → r'.Tidy chars ∧ Q a := by
  constructor
  · intro h r a r' hr hp
    have hpost := h r hr
    rw [wp_apply, hp] at hpost
    exact hpost
  · intro h r hr
    rw [wp_apply]
    cases hp : p.run r with
    | none => trivial
    | some result => exact h r result.1 result.2 hr hp

theorem Yields.weaken {α : Type} {p : Parse α} {P Q : α → Prop} (h : Yields p P)
    (himp : ∀ a, P a → Q a) : Yields p Q := by
  rw [yields_iff] at h ⊢
  intro r a r' hr hrun
  obtain ⟨htidy, ha⟩ := h r a r' hr hrun
  exact ⟨htidy, himp a ha⟩

/-- A reading that goes on after another, as it is met in the middle of a proof. -/
theorem Yields.andThen {α β : Type} {p : Parse α} {f : α → Parse β} {P : α → Prop} {Q : β → Prop}
    (hp : Yields p P) (hf : ∀ a, P a → Yields (f a) Q) {r : Reader} (hr : r.Tidy chars) :
    ((wp p).apply (fun a => (wp (f a)).apply (⇓? b r => ⌜r.Tidy chars ∧ Q b⌝), ExceptConds.true)
      r).down := by
  rw [wp_apply]
  cases hrun : p.run r with
  | none => trivial
  | some result =>
      obtain ⟨htidy, ha⟩ := yields_iff.1 hp r result.1 result.2 hr hrun
      exact hf result.1 ha result.2 htidy

/-- A reading that leaves the reader as it is yields whatever is known of its value. -/
theorem yields_of_unchanged {α : Type} {p : Parse α} {Q : α → Prop}
    (h : ∀ r a r', p.run r = some (a, r') → r' = r ∧ Q a) : Yields p Q := by
  rw [yields_iff]
  intro r a r' hr hp
  obtain ⟨rfl, ha⟩ := h r a r' hp
  exact ⟨hr, ha⟩

@[spec] theorem peek_yields : Yields peek fun _ => True := by
  mvcgen [peek]

@[spec] theorem atSymbol_yields (mark : String) : Yields (atSymbol mark) fun _ => True := by
  mvcgen [atSymbol]

@[spec] theorem atWord_yields (word : String) : Yields (atWord word) fun _ => True := by
  mvcgen [atWord]

@[spec] theorem afterLineBreak_yields : Yields afterLineBreak fun _ => True := by
  mvcgen [afterLineBreak]

@[spec] theorem ensure_yields (condition : Bool) :
    Yields (ensure condition) fun _ => condition = true := by
  refine yields_of_unchanged fun r a r' hrun => ?_
  cases condition with
  | false => cases hrun
  | true =>
      cases hrun
      exact ⟨rfl, rfl⟩

@[spec] theorem failure_yields {α : Type} : Yields (failure : Parse α) fun _ => False := by
  refine yields_of_unchanged fun r a r' hrun => ?_
  cases hrun

omit [Source] in
/-- A value that may be missing, where a missing one is a failure. -/
theorem option_spec {α : Type} (x : Option α) : ⦃⌜True⌝⦄ x ⦃⇓? a => ⌜x = some a⌝⦄ := by
  cases x with
  | none => exact fun _ => trivial
  | some a => exact fun _ => rfl

omit [Source] in
@[spec] theorem toTarget?_spec (n : Node) :
    ⦃⌜True⌝⦄ n.toTarget? ⦃⇓? m => ⌜n.toTarget? = some m⌝⦄ :=
  option_spec _

omit [Source] in
@[spec] theorem toParameters?_spec (n : Node) :
    ⦃⌜True⌝⦄ n.toParameters? ⦃⇓? m => ⌜n.toParameters? = some m⌝⦄ :=
  option_spec _

@[spec] theorem foresee_yields {α : Type} (p : Parse α) (accept : α → Bool) :
    Yields (foresee p accept) fun _ => True := by
  mvcgen [foresee]

/-! ### Single nodes -/

/-- What is put around children that fit is a reading. -/
@[spec] theorem enclose_yields {start : Reader} {kind : Kind} {children : List Node}
    (hstart : start.Tidy chars) (hfits : Node.Fits chars kind children) :
    Yields (enclose start kind children) fun n =>
      n.Reading chars ∧ n.kind = kind ∧ n.children = children := by
  refine yields_of_unchanged fun r n r' hrun => ?_
  cases hrun
  exact ⟨rfl, hfits.reading (hstart.mark.placed _), rfl, rfl⟩

@[spec] theorem leafOfWidth_yields (kind : Kind) (width : Nat) :
    Yields (leafOfWidth kind width) fun n => n.IsLeaf chars kind := by
  rw [yields_iff]
  intro r n r' hr hrun
  cases hrun
  exact ⟨hr.consume width, rfl, rfl, rfl, hr.mark.placed _⟩

@[spec] theorem leaf_yields (kind : Kind) :
    Yields (leaf kind) fun n => n.IsLeaf chars kind := by
  mvcgen [leaf]
  all_goals grind -ring -linarith

@[spec] theorem token_yields : Yields token fun n => n.IsMark chars := by
  mvcgen [token]
  all_goals grind -ring -linarith

@[spec] theorem symbol_yields (mark : String) :
    Yields (symbol mark) fun n => n.IsMark chars := by
  mvcgen [symbol]
  all_goals grind -ring -linarith

@[spec] theorem keyword_yields (word : String) :
    Yields (keyword word) fun n => n.IsMark chars := by
  mvcgen [keyword]
  all_goals grind -ring -linarith

@[spec] theorem symbol?_yields (mark : String) :
    Yields (symbol? mark) (Node.Parts chars) := by
  mvcgen [symbol?]
  all_goals grind -ring -linarith

@[spec] theorem keyword?_yields (word : String) :
    Yields (keyword? word) (Node.Parts chars) := by
  mvcgen [keyword?]
  all_goals grind -ring -linarith

/-! ### Repetition -/

theorem repeatWithin_yields {σ : Type} {step : σ → Parse (Option σ)} {P : σ → Prop}
    (hstep : ∀ s, P s → Yields (step s) fun next => ∀ s' ∈ next, P s') (bound : Nat) (s : σ)
    (hs : P s) : Yields (repeatWithin step bound s) P := by
  induction bound generalizing s with
  | zero =>
      refine yields_of_unchanged fun r a r' hrun => ?_
      cases hrun
  | succ bound ih =>
      rw [repeatWithin]
      mvcgen [hstep, ih]
      all_goals grind -ring -linarith

/-- **What every step keeps, a repetition keeps.** -/
theorem iterate_yields {σ : Type} {step : σ → Parse (Option σ)} {P : σ → Prop}
    (hstep : ∀ s, P s → Yields (step s) fun next => ∀ s' ∈ next, P s') {s : σ} (hs : P s) :
    Yields (iterate step s) P := by
  have hrepeat := repeatWithin_yields hstep
  mvcgen [iterate, hrepeat]

/-- A repeated reading yields the nodes of its rounds in order. -/
theorem manyUntil_rounds {stop : Lexeme → Bool} {p : Parse (List Node)} {Q : List Node → Prop}
    (hp : Yields p Q) : Yields (manyUntil stop p) fun nodes =>
      ∃ rounds : List (List Node), (∀ round ∈ rounds, Q round) ∧ nodes = rounds.flatten := by
  have hrounds : Yields (iterate (fun rounds => do
      if stop (← peek) then return none else return some ((← p) :: rounds)) [])
      fun rounds => ∀ round ∈ rounds, Q round := by
    refine iterate_yields (fun rounds hrounds => ?_) (by simp)
    mvcgen [hp]
    all_goals grind -ring -linarith
  mvcgen [manyUntil, hrounds]
  all_goals grind -ring -linarith

@[spec] theorem manyUntil_yields {stop : Lexeme → Bool} {p : Parse (List Node)}
    (hp : Yields p (Node.Parts chars)) :
    Yields (manyUntil stop p) (Node.Parts chars) := by
  refine (manyUntil_rounds hp).weaken ?_
  rintro nodes ⟨rounds, hrounds, rfl⟩ n hn
  obtain ⟨round, hround, hn⟩ := List.mem_flatten.1 hn
  exact hrounds round hround n hn

/-- Items with commas between them, and nothing but an item in front. -/
@[spec] theorem separated_yields {closing : String} {item : Parse Node}
    (hitem : Yields item fun n => n.Reading chars) :
    Yields (separated closing item) fun nodes =>
      Node.Parts chars nodes ∧ ∀ n ∈ nodes.head?, n.Reading chars := by
  have hround : Yields (do
      let n ← item
      if ← atSymbol "," then return [n, ← token]
      ensure (← atSymbol closing)
      return [n]) fun nodes =>
      Node.Parts chars nodes ∧ ∃ n ∈ nodes.head?, n.Reading chars := by
    mvcgen [hitem]
    all_goals grind -ring -linarith
  refine (manyUntil_rounds hround).weaken ?_
  rintro nodes ⟨rounds, hrounds, rfl⟩
  refine ⟨fun n hn => ?_, ?_⟩
  · obtain ⟨round, hround, hn⟩ := List.mem_flatten.1 hn
    exact (hrounds round hround).1 n hn
  · -- the first round is not empty, so its head is that of the whole list
    cases rounds with
    | nil => simp
    | cons round rounds =>
        obtain ⟨-, m, hm, hreading⟩ := hrounds round (by simp)
        have hhead : (round :: rounds).flatten.head? = some m := by
          rw [List.flatten_cons, List.head?_append, Option.mem_def.1 hm]
          rfl
        rw [hhead]
        simpa using hreading

@[spec] theorem commaList_yields {opening closing : String} {item : Parse Node}
    (hitem : Yields item fun n => n.Reading chars) :
    Yields (commaList opening closing item) (Node.Parts chars) := by
  mvcgen [commaList, hitem]
  all_goals grind -ring -linarith

end Parse

/-! ### Grammars -/

open Source (chars)

/-- Every category yields a reading.  The names of members and the parts of classes are taken apart
later, so they are no calls. -/
structure Grammar.Conforms [Source] (g : Grammar) : Prop where
  yields : ∀ goal, Parse.Yields (g goal) fun n =>
    n.Reading chars ∧ (goal = .propertyName ∨ goal = .classTail → n.kind ≠ .call)

end SchemaScope.Script
