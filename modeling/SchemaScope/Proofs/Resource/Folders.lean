/-
**The strings of a folder.**

A folder of resources is read file by file in the order of the names, and the name of a file without
its extension is the locale of its strings.  Inside a file the first value of a key counts.  Several
files of one folder may belong to one locale, though, when their names differ in the extension; then
the strings of the last one take the place of those of the others.  So a string is found with its
first value exactly if the files before the last one of its locale do not give it another.

Main definitions:

* `FileStore.filesIn` — the files of a directory, in the order of the store;
* `ResourceSet.filesOf` — the files of a locale;
* `ResourceSet.valuesIn` — the values that files give for a key, one file after the other;
* `ResourceSet.string?` — the string of a locale under a key.

Main results:

* `FileStore.mem_filesIn_iff` — the files of a directory are those that stand in it;
* `ResourceSet.string?_ofFiles` — **the last file of a locale is the one that counts**;
* `ResourceSet.scan_first_value_iff` — **which strings a scan finds with their first value**.
-/

import Mathlib.Data.List.Basic
import SchemaScope.Proofs.Resource.Entries
import SchemaScope.Proofs.Resource.Transparency

set_option autoImplicit false

namespace SchemaScope

/-! ### The files of a directory -/

namespace FileStore

/-- The names of the files in a directory with their bytes, in the order of the store. -/
def filesIn (s : FileStore) (place : Place) : List (String × ByteArray) :=
  s.entries.filterMap fun (q, e) =>
    match q.getLast?, e with
    | some name, .file content => if q.dropLast = place then some (name, content) else none
    | _, _ => none

/-- The files of a directory are those that stand in it. -/
theorem mem_filesIn_iff (s : FileStore) (place : Place) (name : String) (content : ByteArray) :
    (name, content) ∈ s.filesIn place ↔ (place ++ [name], Entry.file content) ∈ s.entries := by
  simp only [filesIn, List.mem_filterMap, Prod.exists]
  constructor
  · rintro ⟨q, e, hmem, hfile⟩
    split at hfile
    · rename_i last content' hlast
      split at hfile
      · rename_i hplace
        obtain ⟨rfl, rfl⟩ := Prod.mk.inj (Option.some.inj hfile)
        have hq : q.dropLast ++ [last] = q := List.dropLast_append_getLast? last hlast
        rwa [← hplace, hq]
      · cases hfile
    · cases hfile
  · intro hmem
    exact ⟨place ++ [name], .file content, hmem, by simp⟩

/-- A listing is that of the directory where the path leads. -/
theorem list_eq {s : FileStore} {p : Path} {listed : List (String × ByteArray)}
    (h : s.list p = .ok listed) :
    ∃ place, s.locate p = .ok place ∧
      listed = (s.filesIn place).mergeSort fun a b => a.1 ≤ b.1 := by
  unfold list at h
  cases hplace : s.locate p with
  | error fault => simp [hplace, bind, Except.bind] at h
  | ok place =>
      simp only [hplace, bind, Except.bind] at h
      split at h
      · exact ⟨place, rfl, (Except.ok.inj h).symm⟩
      · cases h

/-- Files are sorted by their names. -/
theorem pairwise_mergeSort_names (files : List (String × ByteArray)) :
    (files.mergeSort fun a b => a.1 ≤ b.1).Pairwise fun a b => a.1 ≤ b.1 := by
  have htrans (a b c : String × ByteArray) (hab : decide (a.1 ≤ b.1) = true)
      (hbc : decide (b.1 ≤ c.1) = true) : decide (a.1 ≤ c.1) = true := by
    simp only [decide_eq_true_eq] at hab hbc ⊢
    exact String.le_trans hab hbc
  have htotal (a b : String × ByteArray) : (decide (a.1 ≤ b.1) || decide (b.1 ≤ a.1)) = true := by
    simp only [Bool.or_eq_true, decide_eq_true_eq]
    exact String.le_total a.1 b.1
  simpa only [decide_eq_true_eq] using List.pairwise_mergeSort htrans htotal files

end FileStore

namespace ResourceSet

/-! ### Files of one locale -/

/-- The files of a locale, in their order. -/
def filesOf (locale : String) (files : List (String × ByteArray)) : List (String × ByteArray) :=
  files.filter fun file => Package.locale? ⟨file.1⟩ = some locale

/-- The values that files give for a key, one file after the other. -/
def valuesIn (key : String) (files : List (String × ByteArray)) : List String :=
  files.flatMap fun file => Locale.valuesOf key (Utf8.decodeLossy file.2)

/-- The string of a locale under a key. -/
def string? (locales : Locales) (locale key : String) : Option String :=
  (locales.get? locale).bind fun strings => strings.get? key

/-- The strings of a locale are those of its last file. -/
theorem get?_ofFiles (files : List (String × ByteArray)) (locale : String) :
    (ofFiles files).get? locale =
      (filesOf locale files).getLast?.map fun file => Locale.strings (Utf8.decodeLossy file.2) := by
  have hlocale : ∀ file : String × ByteArray,
      (ofFile? file).any (fun entry => decide (entry.1 = locale)) =
        decide (Package.locale? ⟨file.1⟩ = some locale) := by
    intro file
    cases h : Package.locale? ⟨file.1⟩ <;> simp [ofFile?, h]
  rw [ofFiles, Table.get?_ofList, ← List.filterMap_reverse, List.find?_filterMap,
    List.getLast?_eq_head?_reverse, filesOf, ← List.filter_reverse, List.head?_filter]
  simp only [hlocale]
  cases hfound : files.reverse.find? fun file => Package.locale? ⟨file.1⟩ = some locale with
  | none => rfl
  | some file =>
      have hfile : Package.locale? ⟨file.1⟩ = some locale := by
        simpa using List.find?_some hfound
      simp [ofFile?, hfile]

/-- The string of a locale under a key is the first value that its last file gives. -/
theorem string?_ofFiles (files : List (String × ByteArray)) (locale key : String) :
    string? (ofFiles files) locale key =
      (valuesIn key (filesOf locale files).getLast?.toList).head? := by
  rw [string?, get?_ofFiles]
  cases (filesOf locale files).getLast? with
  | none => rfl
  | some file => simp [valuesIn, Locale.get?_strings]

/-- The first value in the last file is the first one in all files, exactly if no earlier file gives
another one. -/
theorem head?_valuesIn_getLast?_iff (key : String) (files : List (String × ByteArray)) :
    (valuesIn key files.getLast?.toList).head? = (valuesIn key files).head? ↔
      ∀ value, (valuesIn key files.dropLast).head? = some value →
        (valuesIn key files.getLast?.toList).head? = some value := by
  rcases files.eq_nil_or_concat with rfl | ⟨earlier, last, rfl⟩
  · simp [valuesIn]
  · rw [List.concat_eq_append]
    have hlast : (earlier ++ [last]).getLast?.toList = [last] := by simp
    have hall : valuesIn key (earlier ++ [last]) = valuesIn key earlier ++ valuesIn key [last] := by
      simp [valuesIn]
    rw [hlast, hall, List.head?_append, List.dropLast_concat]
    cases (valuesIn key earlier).head? with
    | none => simp
    | some first => simp

/-! ### Scans -/

/-- **Which strings a scan finds with their first value.**  The files of the folder are taken in the
order of their names.  The string of a locale under a key is the first value that the last file of
the locale gives.  It is the first one that any file of the locale gives, or missing because none
does, exactly if the first value in the files before the last one, should there be one, is the first
value in the last one too. -/
theorem scan_first_value_iff (files : FileStore) (folder : Path)
    (hfolder : files.isDirectory folder = true) :
    ∃ place listed locales, files.locate folder = .ok place ∧ files.list folder = .ok listed ∧
      (∀ name content,
        (name, content) ∈ listed ↔ (place ++ [name], Entry.file content) ∈ files.entries) ∧
      listed.Pairwise (fun a b => a.1 ≤ b.1) ∧
      scan files folder = .ok locales ∧
      ∀ locale key,
        string? locales locale key =
            (valuesIn key (filesOf locale listed).getLast?.toList).head? ∧
          (string? locales locale key = (valuesIn key (filesOf locale listed)).head? ↔
            ∀ value, (valuesIn key (filesOf locale listed).dropLast).head? = some value →
              (valuesIn key (filesOf locale listed).getLast?.toList).head? = some value) := by
  obtain ⟨locales, hscan⟩ := ResourceCache.exists_scan hfolder
  cases hlist : files.list folder with
  | error fault => simp [scan, hlist, Except.map] at hscan
  | ok listed =>
      have hlocales : ofFiles listed = locales := by simpa [scan, hlist, Except.map] using hscan
      obtain ⟨place, hplace, hsorted⟩ := FileStore.list_eq hlist
      refine ⟨place, listed, locales, hplace, rfl, ?_, ?_, hscan, ?_⟩
      · intro name content
        rw [hsorted, List.mem_mergeSort, FileStore.mem_filesIn_iff]
      · rw [hsorted]
        exact FileStore.pairwise_mergeSort_names _
      · intro locale key
        rw [← hlocales, string?_ofFiles]
        exact ⟨rfl, head?_valuesIn_getLast?_iff key _⟩

/-- A file with one string. -/
def greeting : String × ByteArray :=
  ("en.txt", "<Item Name=\"LocalizableStrings.A.Value\" Value=\"one\" />".toUTF8)

/-- A file of the same locale with another string. -/
def farewell : String × ByteArray :=
  ("en.xml", "<Item Name=\"LocalizableStrings.B.Value\" Value=\"two\" />".toUTF8)

/-- A folder with two files of one locale. -/
def twoFiles : FileStore :=
  ((FileStore.empty []).addFile ⟨"R/" ++ greeting.1⟩ greeting.2).addFile
    ⟨"R/" ++ farewell.1⟩ farewell.2

/-- Of two files of one locale only the last one counts: a string that the first one gives is
missing. -/
theorem scan_first_value_iff_twoFiles :
    ∃ locales, twoFiles.list ⟨"R"⟩ = .ok [greeting, farewell] ∧
      scan twoFiles ⟨"R"⟩ = .ok locales ∧
      (valuesIn "A" (filesOf "en" [greeting, farewell])).head? = some "one" ∧
      string? locales "en" "A" = none ∧ string? locales "en" "B" = some "two" := by
  obtain ⟨place, listed, locales, -, hlist, -, -, hscan, hstrings⟩ :=
    scan_first_value_iff twoFiles ⟨"R"⟩ (by decide +kernel)
  have hlisted : listed = [greeting, farewell] := by
    obtain ⟨found, hfound, hlisted⟩ := FileStore.list_eq hlist
    have hplace : twoFiles.locate ⟨"R"⟩ = .ok ["R"] := by decide +kernel
    obtain rfl : ["R"] = found := by simpa [hplace] using hfound
    have hfiles : twoFiles.filesIn ["R"] = [greeting, farewell] := by decide +kernel
    rw [hlisted, hfiles]
    exact List.mergeSort_of_pairwise (by decide +kernel)
  refine ⟨locales, hlisted ▸ hlist, hscan, by decide +kernel, ?_, ?_⟩
  · rw [(hstrings "en" "A").1, hlisted]
    decide +kernel
  · rw [(hstrings "en" "B").1, hlisted]
    decide +kernel

end ResourceSet

end SchemaScope
