/-
**A cache that does not show.**

Requests come to a cache one after the other, while the files change in between in any way at all:
stamps may return to an old value, folders may vanish and come back, descriptors may break, and a
source may be spelled anew each time.  What the cache tells is nevertheless tied to the files.  The
stamp of a set that it gives out is the one that stands in the descriptor now, and the strings are
those of the latest scan for the source.  If the stamp of a source determines its folder, as the
platform intends, then the cache does not show in the replies at all.

Main definitions:

* `ResourceCache.Call`, `ResourceCache.after` — requests with the files at their moments, and the
  cache after them;
* `ResourceCache.Scans`, `ResourceCache.LatestScan` — a call that scans for a source, and the last
  of them;
* `ResourceCache.direct`, `ResourceCache.serveDirect` — what is told without a cache;
* `ResourceCache.Determined` — the stamp of a source determines its folder.

Main results:

* `ResourceCache.load_cases` — a request scans, or leaves the cache alone;
* `ResourceCache.latestScan_of_get?` — **what is kept is what the latest scan made**;
* `ResourceCache.load_eq_direct` — under a determined run, loading is as without a cache;
* `ResourceCache.serve_fresh_and_transparent` — the two together, for every call of every run.
-/

import Mathlib.Data.List.Induction
import SchemaScope.Proofs.Resource.Sources

set_option autoImplicit false

namespace SchemaScope.ResourceCache

/-! ### Calls -/

/-- The source that a request is about. -/
def Request.source? : Request → Option Path
  | .load source => some source
  | .resolve source _ => some source
  | .resolveLine source _ _ => some source
  | .clear => none

theorem Request.ne_clear {request : Request} {source : Path} (h : request.source? = some source) :
    request ≠ .clear := by
  rintro rfl
  cases h

/-- The reply to a request, given what was loaded for its source. -/
def Request.reply (loaded : Except DescriptorError (Option ResourceSet)) : Request → Reply
  | .load _ => .set loaded
  | .resolve _ key => .values (loaded.map fun set => set.map (·.valuesOrMissing key))
  | .resolveLine _ line offset =>
      let key := (Mention.keyOn? line offset).getD ""
      .values (loaded.map fun set => set.map (·.valuesOrMissing key))
  | .clear => .cleared

/-- A request, and the files at the moment when it comes. -/
structure Call where
  files : FileStore
  request : Request

/-- The cache after calls, from when nothing is kept. -/
def after (calls : List Call) : ResourceCache :=
  calls.foldl (fun c call => (c.serve call.files call.request).2) empty

@[simp] theorem after_nil : after [] = empty := rfl

theorem after_concat (calls : List Call) (call : Call) :
    after (calls ++ [call]) = ((after calls).serve call.files call.request).2 := by
  simp [after]

/-- A request about a source loads its resources and tells of nothing else. -/
theorem serve_eq (c : ResourceCache) (files : FileStore) {request : Request} {source : Path}
    (h : request.source? = some source) :
    c.serve files request =
      (request.reply (c.load files source).1, (c.load files source).2) := by
  cases request with
  | load p | resolve p key | resolveLine p line offset =>
      obtain rfl := Option.some.inj h
      rfl
  | clear => cases h

/-! ### Scans -/

/-- The call scans the folder of a source, and makes the given set of it: the descriptor has a
stamp, what is kept for the source has another stamp, if anything, and the folder is there. -/
structure Scans (c : ResourceCache) (call : Call) (source : Path) (set : ResourceSet) : Prop where
  request : call.request.source? = some set.source
  same : set.source.segments = source.segments
  stamped : stamp call.files set.source = .ok (some set.time)
  missed : ∀ old, c.get? set.source = some old → old.time ≠ set.time
  named : set.schemaName = (Package.schemaName? set.source).getD ""
  scanned : ∃ folder, Package.resourceFolder? set.source = some folder ∧
    call.files.isDirectory folder = true ∧ ResourceSet.scan call.files folder = .ok set.locales

/-- The set that the latest scan for a source made since the cache was last cleared. -/
def LatestScan (calls : List Call) (source : Path) (set : ResourceSet) : Prop :=
  ∃ earlier call later, calls = earlier ++ call :: later ∧ Scans (after earlier) call source set ∧
    ∀ between other rest, later = between ++ other :: rest → other.request ≠ .clear ∧
      ∀ set', ¬ Scans (after (earlier ++ call :: between)) other source set'

theorem LatestScan.now {calls : List Call} {call : Call} {source : Path} {set : ResourceSet}
    (h : Scans (after calls) call source set) : LatestScan (calls ++ [call]) source set :=
  ⟨calls, call, [], rfl, h, fun between other rest hnil => by simp at hnil⟩

/-- A call that neither clears the cache nor scans for the source changes nothing about the latest
scan. -/
theorem LatestScan.concat {calls : List Call} {call : Call} {source : Path} {set : ResourceSet}
    (h : LatestScan calls source set) (hclear : call.request ≠ .clear)
    (hscan : ∀ set', ¬ Scans (after calls) call source set') :
    LatestScan (calls ++ [call]) source set := by
  obtain ⟨earlier, scan, later, rfl, hset, hlater⟩ := h
  refine ⟨earlier, scan, later ++ [call], by simp, hset, ?_⟩
  intro between other rest heq
  -- the other call is one of the later ones, or the new one
  rcases List.eq_nil_or_concat rest with rfl | ⟨rest, last, rfl⟩
  · obtain ⟨rfl, hlast⟩ := List.append_inj' heq rfl
    obtain rfl : call = other := by simpa using hlast
    exact ⟨hclear, hscan⟩
  · have heq' : later ++ [call] = (between ++ other :: rest) ++ [last] := by simpa using heq
    exact hlater between other rest (List.append_inj' heq' rfl).1

/-! ### Loading -/

/-- A directory can be scanned. -/
theorem exists_scan {files : FileStore} {folder : Path} (h : files.isDirectory folder = true) :
    ∃ locales, ResourceSet.scan files folder = .ok locales := by
  unfold FileStore.isDirectory FileStore.entryAt at h
  unfold ResourceSet.scan FileStore.list
  cases hl : files.locate folder with
  | error fault => simp [hl, bind, Except.bind] at h
  | ok place =>
      have hdirectory : files.hasDirectory place = true := by
        cases hg : files.get? place with
        | none => simp [hl, hg, bind, Except.bind] at h
        | some entry =>
            cases entry with
            | file content => simp [hl, hg, bind, Except.bind] at h
            | directory => simp [FileStore.hasDirectory, hg, Entry.isDirectory]
      simp [bind, Except.bind, hdirectory, Except.map]

section Load

variable {c : ResourceCache} {call : Call} {source : Path} {time : String}

theorem load_of_kept {set : ResourceSet} (hstamp : stamp call.files source = .ok (some time))
    (hget : c.get? source = some set) (htime : set.time = time) :
    c.load call.files source = (.ok (some set), c) := by
  simp [load, hstamp, hget, Option.filter, htime]

/-- What is kept under another stamp is not looked at. -/
theorem load_of_missed (hstamp : stamp call.files source = .ok (some time))
    (hmissed : ∀ old, c.get? source = some old → old.time ≠ time) :
    (c.load call.files source).1 = freshSet call.files source time ∧
      (c.load call.files source).2 =
        match freshSet call.files source time with
        | .ok (some set) => c.put source set
        | _ => c := by
  have hnone : ((c.get? source).filter fun set => set.time = time) = none := by
    simpa [Option.filter_eq_none_iff] using hmissed
  simp only [load, hstamp, hnone]
  split <;> simp_all

/-- Without its folder, a source has no resources; with it, they are what a scan makes of it. -/
theorem freshSet_cases (files : FileStore) (source : Path) (time : String) :
    (freshSet files source time = .ok none ∧
      ∀ folder, Package.resourceFolder? source = some folder → files.isDirectory folder = false) ∨
    ∃ folder locales, Package.resourceFolder? source = some folder ∧
      files.isDirectory folder = true ∧ ResourceSet.scan files folder = .ok locales ∧
      freshSet files source time =
        .ok (some ⟨source, (Package.schemaName? source).getD "", time, locales⟩) := by
  unfold freshSet
  cases hf : Package.resourceFolder? source with
  | none => exact .inl ⟨rfl, fun folder h => by cases h⟩
  | some folder =>
      cases hd : files.isDirectory folder with
      | false => exact .inl ⟨by simp [Option.filter, hd], by simpa using hd⟩
      | true =>
          obtain ⟨locales, hlocales⟩ := exists_scan hd
          exact .inr ⟨folder, locales, rfl, hd, hlocales, by simp [Option.filter, hd, hlocales]⟩

/-- Without a stamp there is nothing to tell, and nothing changes. -/
theorem load_of_unstamped (c : ResourceCache)
    (hstamp : ∀ time, stamp call.files source ≠ .ok (some time)) :
    (c.load call.files source).2 = c ∧ ∀ set, (c.load call.files source).1 ≠ .ok (some set) := by
  cases h : stamp call.files source with
  | error e => simp [load, h]
  | ok stamped =>
      cases stamped with
      | none => simp [load, h]
      | some time => exact absurd h (hstamp time)

/-- A scan is a scan for the source that the request is about, under the stamp of its descriptor. -/
theorem Scans.of_request {other : Path} {set : ResourceSet} (h : Scans c call other set)
    (hsource : call.request.source? = some source) :
    set.source = source ∧ stamp call.files source = .ok (some set.time) ∧
      ∀ old, c.get? source = some old → old.time ≠ set.time := by
  obtain rfl : set.source = source := Option.some.inj (h.request.symm.trans hsource)
  exact ⟨rfl, h.stamped, h.missed⟩

/-- A request about a source scans, or it leaves the cache alone and tells what is kept, if
anything. -/
theorem load_cases (c : ResourceCache) (h : call.request.source? = some source) :
    (∃ set, Scans c call source set ∧ set.source = source ∧
      c.load call.files source = (.ok (some set), c.put source set)) ∨
    ((∀ other set, ¬ Scans c call other set) ∧ (c.load call.files source).2 = c ∧
      ∀ set, (c.load call.files source).1 = .ok (some set) →
        c.get? source = some set ∧ stamp call.files source = .ok (some set.time)) := by
  by_cases hstamp : ∃ time, stamp call.files source = .ok (some time)
  · obtain ⟨time, hstamp⟩ := hstamp
    by_cases hkept : ∃ old, c.get? source = some old ∧ old.time = time
    · -- the kept set has the stamp of the descriptor
      obtain ⟨old, hget, htime⟩ := hkept
      have hload := load_of_kept hstamp hget htime
      refine .inr ⟨?_, by rw [hload], ?_⟩
      · intro other set hs
        obtain ⟨-, hstamped, hmissed⟩ := hs.of_request h
        have hset : time = set.time := by simpa [hstamp] using hstamped
        exact hmissed old hget (htime.trans hset)
      · intro set hset
        obtain rfl : old = set := by simpa [hload] using hset
        exact ⟨hget, by rw [htime, hstamp]⟩
    · -- nothing of use is kept, so the folder decides
      have hmissed : ∀ old, c.get? source = some old → old.time ≠ time :=
        fun old hget htime => hkept ⟨old, hget, htime⟩
      obtain ⟨houtcome, hcache⟩ := load_of_missed hstamp hmissed
      rcases freshSet_cases call.files source time with
        ⟨hfresh, hfolder⟩ | ⟨folder, locales, hfolder, hd, hscan, hfresh⟩ <;>
        rw [hfresh] at houtcome hcache
      · refine .inr ⟨?_, hcache, by simp [houtcome]⟩
        intro other set hs
        obtain ⟨folder, hf, hd, -⟩ := hs.scanned
        rw [(hs.of_request h).1] at hf
        simp [hfolder folder hf] at hd
      · refine .inl ⟨_, ?_, ?_, Prod.ext houtcome hcache⟩
        · exact ⟨h, rfl, hstamp, hmissed, rfl, folder, hfolder, hd, hscan⟩
        · rfl
  · obtain ⟨hcache, houtcome⟩ := c.load_of_unstamped fun time hs => hstamp ⟨time, hs⟩
    refine .inr ⟨?_, hcache, fun set hset => absurd hset (houtcome set)⟩
    intro other set hs
    exact hstamp ⟨set.time, (hs.of_request h).2.1⟩

end Load

/-! ### Runs -/

/-- What is kept for a source is what the latest scan for it made.  The induction is over the calls,
the last one first: it scans for the source, scans for another one, or leaves the cache alone. -/
theorem latestScan_of_get? (calls : List Call) {source : Path} {set : ResourceSet}
    (h : (after calls).get? source = some set) : LatestScan calls source set := by
  induction calls using List.reverseRecOn with
  | nil => simp at h
  | append_singleton calls call ih =>
      rw [after_concat] at h
      cases hs : call.request.source? with
      | none =>
          obtain hclear : call.request = .clear := by
            cases hr : call.request <;> simp_all [Request.source?]
          simp [hclear, serve] at h
      | some asked =>
          have hclear := Request.ne_clear hs
          rw [serve_eq _ _ hs] at h
          rcases load_cases (after calls) hs with ⟨made, hscan, hmade, hload⟩ | ⟨hno, hcache, -⟩
          · rw [hload] at h
            -- a scan for other steps does not touch what is kept for these
            by_cases hsame : source.segments = asked.segments
            · obtain rfl : made = set := by simpa [get?_put_self _ hsame] using h
              exact .now { hscan with same := hscan.same.trans hsame.symm }
            · rw [get?_put_of_ne _ hsame] at h
              refine (ih h).concat hclear ?_
              intro set' hscan'
              refine hsame ?_
              have hasked : set'.source = asked := Option.some.inj (hscan'.request.symm.trans hs)
              rw [← hscan'.same, hasked]
          · rw [hcache] at h
            exact (ih h).concat hclear (hno source)

/-- A set that is told to a source has the stamp of its descriptor, and was made by the latest scan
for it, which may be the call itself. -/
theorem load_spec (calls : List Call) {call : Call} {source : Path} {set : ResourceSet}
    (hs : call.request.source? = some source)
    (h : ((after calls).load call.files source).1 = .ok (some set)) :
    stamp call.files source = .ok (some set.time) ∧ LatestScan (calls ++ [call]) source set := by
  rcases load_cases (after calls) hs with ⟨made, hscan, hmade, hload⟩ | ⟨hno, -, hkept⟩
  · obtain rfl : made = set := by simpa [hload] using h
    exact ⟨hmade ▸ hscan.stamped, .now hscan⟩
  · obtain ⟨hget, hstamp⟩ := hkept set h
    exact ⟨hstamp, (latestScan_of_get? calls hget).concat (Request.ne_clear hs) (hno source)⟩

/-! ### Without a cache -/

/-- The resources of a source, read anew. -/
def direct (files : FileStore) (source : Path) : Except DescriptorError (Option ResourceSet) :=
  match stamp files source with
  | .error e => .error e
  | .ok none => .ok none
  | .ok (some time) => freshSet files source time

/-- The reply to a request, if nothing is ever kept. -/
def serveDirect (files : FileStore) (request : Request) : Reply :=
  match request.source? with
  | some source => request.reply (direct files source)
  | none => .cleared

/-- A set as if it had been asked for under the given spelling of its source. -/
def spelledSet (source : Path) (set : ResourceSet) : ResourceSet := { set with source := source }

/-- A reply as if its set had been asked for under the given spelling of its source. -/
def Reply.spelled (source : Path) : Reply → Reply
  | .set outcome => .set (outcome.map (Option.map (spelledSet source)))
  | other => other

/-- The values of strings do not tell how the source was spelled. -/
theorem reply_spelled (source : Path) (request : Request)
    (loaded : Except DescriptorError (Option ResourceSet)) :
    (request.reply loaded).spelled source =
      request.reply (loaded.map (Option.map (spelledSet source))) := by
  cases request with
  | load p => rfl
  | clear => rfl
  | resolve p key | resolveLine p line offset =>
      cases loaded with
      | error e => rfl
      | ok loaded => cases loaded <;> rfl

/-- The folder of a source is there in both stores, with the same files, or in neither. -/
def SameFolder (source : Path) (a b : FileStore) : Prop :=
  ∀ folder, Package.resourceFolder? source = some folder →
    a.isDirectory folder = b.isDirectory folder ∧
      (a.isDirectory folder = true → a.list folder = b.list folder)

/-- Whenever the descriptor of a source that is asked for has the same stamp at two moments of the
calls, the folder of the source is the same. -/
def Determined (calls : List Call) : Prop :=
  ∀ asking ∈ calls, ∀ source, asking.request.source? = some source →
    ∀ a ∈ calls, ∀ b ∈ calls, ∀ time, stamp a.files source = .ok (some time) →
      stamp b.files source = .ok (some time) → SameFolder source a.files b.files

/-- What a scan made is what is read anew now, if the folder is still the same. -/
theorem freshSet_of_scans {c : ResourceCache} {call : Call} {source : Path} {set : ResourceSet}
    {files : FileStore} (h : Scans c call source set) (hsame : SameFolder source call.files files) :
    freshSet files source set.time = .ok (some (spelledSet source set)) := by
  obtain ⟨folder, hfolder, hd, hscan⟩ := h.scanned
  rw [Package.resourceFolder?_congr h.same] at hfolder
  obtain ⟨hexists, hlist⟩ := hsame folder hfolder
  rcases freshSet_cases files source set.time with
    ⟨-, hgone⟩ | ⟨folder', locales, hfolder', -, hscan', hfresh⟩
  · exact absurd (hd.symm.trans (hexists.trans (hgone folder hfolder))) (by decide)
  · obtain rfl : folder = folder' := Option.some.inj (hfolder.symm.trans hfolder')
    have hlocales : locales = set.locales := by
      rw [ResourceSet.scan, ← hlist hd] at hscan'
      exact Except.ok.inj (hscan'.symm.trans hscan)
    rw [hfresh, hlocales, ← Package.schemaName?_congr h.same, ← h.named]
    rfl

theorem map_spelledSet_freshSet (files : FileStore) (source : Path) (time : String) :
    (freshSet files source time).map (Option.map (spelledSet source)) =
      freshSet files source time := by
  rcases freshSet_cases files source time with ⟨hfresh, -⟩ | ⟨folder, locales, -, -, -, hfresh⟩
  · rw [hfresh]
    rfl
  · rw [hfresh]
    rfl

/-- In a determined run a source is loaded as without a cache, up to the spelling of its path. -/
theorem load_eq_direct {calls : List Call} {call : Call} {source : Path}
    (hs : call.request.source? = some source) (h : Determined (calls ++ [call])) :
    ((after calls).load call.files source).1.map (Option.map (spelledSet source)) =
      direct call.files source := by
  unfold direct
  cases hstamp : stamp call.files source with
  | error e => simp [load, hstamp, Except.map]
  | ok stamped =>
      cases stamped with
      | none => simp [load, hstamp, Except.map]
      | some time =>
          by_cases hkept : ∃ old, (after calls).get? source = some old ∧ old.time = time
          · -- what is kept was scanned under this stamp, so the folder is as it was then
            obtain ⟨old, hget, rfl⟩ := hkept
            obtain ⟨earlier, scan, later, rfl, hscan, -⟩ := latestScan_of_get? calls hget
            have hthen : stamp scan.files source = .ok (some old.time) :=
              stamp_congr hscan.same hscan.stamped
            have hsame : SameFolder source scan.files call.files :=
              h call (by simp) source hs scan (by simp) call (by simp) old.time hthen hstamp
            rw [load_of_kept hstamp hget rfl]
            exact (freshSet_of_scans hscan hsame).symm
          · have hmissed : ∀ old, (after calls).get? source = some old → old.time ≠ time := by
              intro old hget htime
              exact hkept ⟨old, hget, htime⟩
            rw [(load_of_missed hstamp hmissed).1]
            exact map_spelledSet_freshSet call.files source time

/-- **A cache that is fresh and does not show.**  For every call of every run, with files that
change at will, and with everything that was loaded for the source that the call asks for:

* the reply is made of what was loaded;
* a set that was loaded has the stamp that the descriptor has now;
* it was made by the latest scan for the source since the cache was cleared, this call included, and
  a set that is kept under another stamp is never told: the folder is read anew;
* if there is no set, or an error, then the cache stays as it was;
* if stamps determine folders throughout the run, then the reply is that of a resolver without a
  cache, up to the spelling of the source. -/
theorem serve_fresh_and_transparent (calls : List Call) (call : Call) (source : Path)
    (hs : call.request.source? = some source) :
    let kept := after calls
    let loaded := (kept.load call.files source).1
    (kept.serve call.files call.request).1 = call.request.reply loaded ∧
    (∀ set, loaded = .ok (some set) → stamp call.files source = .ok (some set.time)) ∧
    (∀ set, loaded = .ok (some set) → LatestScan (calls ++ [call]) source set) ∧
    (∀ old time, kept.get? source = some old → stamp call.files source = .ok (some time) →
      old.time ≠ time → loaded = freshSet call.files source time ∧
        ∀ set, loaded = .ok (some set) → Scans kept call source set) ∧
    ((∀ set, loaded ≠ .ok (some set)) → (kept.serve call.files call.request).2 = kept) ∧
    (Determined (calls ++ [call]) →
      (kept.serve call.files call.request).1.spelled source =
        serveDirect call.files call.request) := by
  intro kept loaded
  have hserve := serve_eq kept call.files hs
  refine ⟨by rw [hserve], ?_, ?_, ?_, ?_, ?_⟩
  · intro set h
    exact (load_spec calls hs h).1
  · intro set h
    exact (load_spec calls hs h).2
  · intro old time hget hstamp htime
    have hmissed : ∀ other, kept.get? source = some other → other.time ≠ time := by
      intro other hother
      obtain rfl : old = other := Option.some.inj (hget.symm.trans hother)
      exact htime
    refine ⟨(load_of_missed hstamp hmissed).1, ?_⟩
    intro set h
    rcases load_cases kept hs with ⟨made, hscan, -, hload⟩ | ⟨-, -, hkept⟩
    · obtain rfl : made = set := by simpa [loaded, hload] using h
      exact hscan
    · -- a set that was kept has the stamp of the descriptor, which the kept set has not
      obtain ⟨hset, hstamped⟩ := hkept set h
      have heq : time = set.time := by simpa [hstamp] using hstamped
      exact absurd heq.symm (hmissed set hset)
  · intro hnone
    rw [hserve]
    rcases load_cases kept hs with ⟨made, -, -, hload⟩ | ⟨-, hcache, -⟩
    · exact absurd (by simp [loaded, hload]) (hnone made)
    · exact hcache
  · intro hdetermined
    rw [hserve, reply_spelled, load_eq_direct hs hdetermined, serveDirect, hs]

/-- The files of a schema, without the folder of its resources. -/
def bareSchema : FileStore :=
  (FileStore.empty []).addFile ⟨"Schemas/A/descriptor.json"⟩
    "\x7b\"Descriptor\":\x7b\"ModifiedOnUtc\":\"noon\"\x7d\x7d".toUTF8

/-- The files of a schema, with the folder of its resources. -/
def wholeSchema : FileStore := bareSchema.addDirectory ⟨"Resources/A.ClientUnit"⟩

/-- The schema is asked for while its folder is there. -/
def firstCall : Call := ⟨wholeSchema, .load ⟨"Schemas/A/A.js"⟩⟩

/-- Another spelling of the schema's path. -/
def respelled : Path := ⟨"Schemas//A/./A.js"⟩

theorem exists_of_isSome {loaded : Except DescriptorError (Option ResourceSet)}
    (h : loaded.toOption.join.isSome = true) : ∃ set, loaded = .ok (some set) := by
  match loaded, h with
  | .ok (some set), _ => exact ⟨set, rfl⟩

/-- A schema that is asked for again, under another spelling, is loaded as without a cache while its
folder is the same; when the folder has gone and the stamp has not, the set of the first call is told
although there would be none without a cache. -/
theorem serve_fresh_and_transparent_respelled :
    ((after [firstCall]).serve wholeSchema (.load respelled)).1.spelled respelled =
      serveDirect wholeSchema (.load respelled) ∧
    ∃ set, ((after [firstCall]).load bareSchema respelled).1 = .ok (some set) ∧
      stamp bareSchema respelled = .ok (some set.time) ∧
      LatestScan [firstCall, ⟨bareSchema, .load respelled⟩] respelled set ∧
      ∀ other, direct bareSchema respelled ≠ .ok (some other) := by
  constructor
  · -- the files are the same at both moments
    have hdetermined : Determined ([firstCall] ++ [⟨wholeSchema, .load respelled⟩]) := by
      intro asking _ source _ a ha b hb time _ _ folder _
      have hfiles : ∀ call ∈ [firstCall, ⟨wholeSchema, .load respelled⟩],
          call.files = wholeSchema := by
        intro call hcall
        rcases List.mem_pair.1 hcall with rfl | rfl <;> rfl
      rw [hfiles a ha, hfiles b hb]
      exact ⟨rfl, fun _ => rfl⟩
    exact (serve_fresh_and_transparent [firstCall] ⟨wholeSchema, .load respelled⟩ respelled
      rfl).2.2.2.2.2 hdetermined
  · have hkept :
        ((after [firstCall]).load bareSchema respelled).1.toOption.join.isSome = true := by
      decide +kernel
    obtain ⟨set, hset⟩ := exists_of_isSome hkept
    obtain ⟨-, hfresh, hlatest, -⟩ :=
      serve_fresh_and_transparent [firstCall] ⟨bareSchema, .load respelled⟩ respelled rfl
    refine ⟨set, hset, hfresh set hset, hlatest set hset, ?_⟩
    intro other hother
    have hgone : (direct bareSchema respelled).toOption.join.isSome = false := by decide +kernel
    rw [hother] at hgone
    cases hgone

end SchemaScope.ResourceCache
