/-
Module: YulFuzz.Proofs.Files
Purpose: What writing a file changes. The laws of a store say it for all files that are reached by paths: reading
  changes nothing, and a write either fails and changes nothing, or there is a file that it replaces: then that
  file has the text, it is found under the path again, and every other file is as it was. A directory keeps these
  laws: no directory is lost by a write, so the path leads to the same place before and after it.
Main exports: FileView, FileView.Replaced, FileStore.Lawful, Directory.view, Directory.store_lawful
-/
import Mathlib.Data.List.Basic
import YulFuzz.CommandLine.Files

namespace YulFuzz

/-- Steps that end well have each ended well. -/
theorem exists_of_bind_eq_ok {ε α β : Type} {first : Except ε α} {next : α → Except ε β} {b : β}
    (ran : first >>= next = .ok b) : ∃ a, first = .ok a ∧ next a = .ok b := by
  cases first with
  | error => cases ran
  | ok a => exact ⟨a, rfl, ran⟩

/-! ### Laws of a store -/

/-- What can be seen of files that are reached by paths. -/
structure FileView (σ : Type) where
  /-- What tells files apart, under whichever paths they are reached. -/
  File : Type
  /-- What a file holds, which may be no text. -/
  Content : Type
  ofText : String → Content
  content? : σ → File → Option Content
  /-- What is read under a path. -/
  read : σ → (path : String) → Except FileFault String
  /-- The file that is written under a path, there already or not. -/
  target : σ → (path : String) → Except FileFault File

/-- The file that a path leads to has a new text, which is found under the path, and no other file is different. -/
structure FileView.Replaced {σ : Type} (view : FileView σ) (before : σ) (path text : String) (file : view.File)
    (after : σ) : Prop where
  leads : view.target before path = .ok file
  written : view.content? after file = some (view.ofText text)
  others : ∀ other, other ≠ file → view.content? after other = view.content? before other
  read : view.read after path = .ok text

/-- The laws of reading and writing. What fails changes nothing, and whether a file can be written does not depend
    on the text. -/
structure FileStore.Lawful {σ : Type} (store : FileStore (StateM σ)) (view : FileView σ) : Prop where
  read : ∀ s path, (store.read path).run s = (view.read s path, s)
  refuse : ∀ s path text fault, view.target s path = .error fault →
    (store.write path text).run s = (.error fault, s)
  write : ∀ s path text file, view.target s path = .ok file →
    ∃ after, (store.write path text).run s = (.ok (), after) ∧ view.Replaced s path text file after

/-! ### Directories -/

namespace Directory

variable {files after : Directory} {path text : String} {start place : List String} {fault : FileFault}

/-! #### Lookups -/

/-- The directory with a text as the content of the file with a name. -/
def put (files : Directory) (name text : String) : Directory :=
  if (files.lookup name).isSome then files.map fun file => if file.1 = name then (name, text) else file
  else files ++ [(name, text)]

theorem lookup_cons_eq (file : String × String) (rest : Directory) (name : String) :
    (file :: rest).lookup name = if name = file.1 then some file.2 else rest.lookup name := by
  rw [List.lookup_cons]
  by_cases same : name = file.1
  · rw [if_pos same, beq_iff_eq.2 same]
  · rw [if_neg same, beq_eq_false_iff_ne.2 same]

theorem lookup_replace (files : Directory) (name text other : String) :
    (files.map fun file => if file.1 = name then (name, text) else file).lookup other =
      if other = name then (files.lookup name).map fun _ => text else files.lookup other := by
  induction files with
  | nil => simp
  | cons file rest ih =>
      rw [List.map_cons, lookup_cons_eq, lookup_cons_eq, lookup_cons_eq, ih]
      by_cases same : file.1 = name
      · by_cases asked : other = name <;> simp [same, asked]
      · by_cases asked : other = file.1
        · simp [asked, same]
        · simp [same, asked, Ne.symm same]

theorem lookup_put (files : Directory) (name text other : String) :
    (files.put name text).lookup other = if other = name then some text else files.lookup other := by
  unfold put
  split
  · rename_i found
    obtain ⟨old, found⟩ := Option.isSome_iff_exists.1 found
    rw [lookup_replace, found]
    rfl
  · rename_i missing
    have missing : files.lookup name = none := by rwa [Option.not_isSome_iff_eq_none] at missing
    rw [List.lookup_append, lookup_cons_eq]
    by_cases asked : other = name
    · simp [asked, missing]
    · simp [asked]

/-- Every file that was there is still there under its name. -/
theorem exists_mem_put {file : String × String} (member : file ∈ files) (name text : String) :
    ∃ kept ∈ files.put name text, kept.1 = file.1 := by
  unfold put
  split
  · refine ⟨_, List.mem_map_of_mem member, ?_⟩
    split
    · rename_i same
      exact same.symm
    · rfl
  · exact ⟨file, List.mem_append_left _ member, rfl⟩

/-! #### Paths -/

theorem holds_put (inside : files.holds place) (name text : String) : (files.put name text).holds place := by
  simp only [holds, Bool.or_eq_true, List.any_eq_true] at inside ⊢
  refine inside.imp_right ?_
  rintro ⟨file, member, within⟩
  obtain ⟨kept, still, same⟩ := exists_mem_put member name text
  exact ⟨kept, still, same ▸ within⟩

/-- A path goes through directories only, and these are still there. -/
theorem follow_put {parts : List String} (found : files.follow start parts = .ok place) (name text : String) :
    (files.put name text).follow start parts = .ok place := by
  induction parts generalizing start with
  | nil => exact found
  | cons part rest ih =>
      rw [follow] at found ⊢
      split at found
      · split at found <;> cases found
      · rename_i inside
        have still : (files.put name text).holds start := holds_put (by simpa using inside) name text
        rw [if_neg (by simpa using still)]
        split_ifs at found ⊢
        all_goals exact ih found

theorem place_put {parts : List String} (found : files.place parts = .ok place) (name text : String) :
    (files.put name text).place parts = .ok place := by
  unfold Directory.place at found ⊢
  split at found
  · cases found
  · exact follow_put found name text

/-- A file is written at the place to which the parts of its path lead. -/
theorem place_of_placeToWrite (writable : files.placeToWrite path = .ok place) :
    ∃ parts, partsOf path = .ok parts ∧ files.place parts = .ok place := by
  unfold placeToWrite at writable
  obtain ⟨parts, split, writable⟩ := exists_of_bind_eq_ok writable
  refine ⟨parts, split, ?_⟩
  dsimp only at writable
  split at writable
  · -- A path with a slash at its end is refused, wherever it leads.
    obtain ⟨_, _, refused⟩ := exists_of_bind_eq_ok writable
    cases refused
  · obtain ⟨found, leads, writable⟩ := exists_of_bind_eq_ok writable
    split at writable
    · cases writable
    · obtain rfl := Except.ok.inj writable
      exact leads

/-- A file is read at the same place. -/
theorem read_eq_ok {parts : List String} (split : partsOf path = .ok parts) (leads : files.place parts = .ok place)
    (found : files.text? place = some text) : files.read path = .ok text := by
  rw [Directory.read, split]
  change files.place parts >>= _ = _
  rw [leads]
  simp only [bind, Except.bind, found]
  rfl

/-! #### Reading and writing -/

/-- The files of a directory are told apart by their names, and all hold texts. -/
def view : FileView Directory where
  File := String
  Content := String
  ofText := id
  content? files name := files.lookup name
  read := Directory.read
  target files path := nameAt <$> files.placeToWrite path

theorem write_eq_error (unwritable : files.placeToWrite path = .error fault) (text : String) :
    files.write path text = .error fault := by
  unfold write
  rw [unwritable]
  rfl

theorem write_eq_ok (writable : files.placeToWrite path = .ok place) (text : String) :
    files.write path text = .ok (files.put (nameAt place) text) := by
  unfold write put
  rw [writable]
  change (if _ then _ else _) = _
  split_ifs <;> rfl

/-- Where a file can be written, writing it replaces its text. -/
theorem replaced_put (writable : files.placeToWrite path = .ok place) (text : String) :
    view.Replaced files path text (nameAt place) (files.put (nameAt place) text) := by
  obtain ⟨parts, split, leads⟩ := place_of_placeToWrite writable
  have written : (files.put (nameAt place) text).text? place = some text := by
    rw [text?, lookup_put, if_pos rfl]
  constructor
  case leads => exact congrArg (nameAt <$> ·) writable
  case written => exact written
  case others => exact fun other ne => (lookup_put files (nameAt place) text other).trans (if_neg ne)
  case read => exact read_eq_ok split (place_put leads (nameAt place) text) written

theorem run_write (files : Directory) (path text : String) : (store.write path text).run files =
    match files.write path text with
    | .ok after => (.ok (), after)
    | .error fault => (.error fault, files) := by
  simp only [store, StateT.run_bind, StateT.run_get, pure_bind]
  cases files.write path text <;> rfl

/-- A directory keeps the laws of a store. -/
theorem store_lawful : store.Lawful view where
  read _ _ := rfl
  refuse files path text fault refused := by
    cases leads : files.placeToWrite path with
    | error other =>
        obtain rfl := Except.error.inj ((congrArg (nameAt <$> ·) leads).symm.trans refused)
        rw [run_write, write_eq_error leads]
    | ok place => cases (congrArg (nameAt <$> ·) leads).symm.trans refused
  write files path text file leads := by
    cases writable : files.placeToWrite path with
    | error fault => cases (congrArg (nameAt <$> ·) writable).symm.trans leads
    | ok place =>
        obtain rfl := Except.ok.inj ((congrArg (nameAt <$> ·) writable).symm.trans leads)
        exact ⟨_, by rw [run_write, write_eq_ok writable], replaced_put writable text⟩

end Directory

end YulFuzz
