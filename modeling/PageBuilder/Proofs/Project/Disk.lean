import PageBuilder.Proofs.Outcome
import PageBuilder.Project.Disk

/-!
Files on the disk. A text that is written is there to be read, and stays as it is while directories
are made and files of other names are written.
-/

namespace PageBuilder

namespace Path

structure PlainName (name : String) : Prop where
  unslashed : '/' ∉ name.toList
  elsewhere : isHere name = false
  notUp : name ≠ ".."

theorem split_names_append (word chars rest : List Char) :
    splitNames word (chars ++ '/' :: rest) = splitNames word chars ++ splitNames [] rest := by
  induction chars generalizing word with
  | nil => simp [splitNames]
  | cons char chars ih =>
      rw [List.cons_append, splitNames, splitNames]
      split
      · rw [ih, List.cons_append]
      · exact ih (char :: word)

theorem split_names_unslashed {word chars : List Char} (unslashed : '/' ∉ chars) :
    splitNames word chars = [String.ofList (word.reverse ++ chars)] := by
  induction chars generalizing word with
  | nil => rw [splitNames, List.append_nil]
  | cons char chars ih =>
      rw [List.mem_cons, not_or] at unslashed
      rw [splitNames, if_neg (Ne.symm unslashed.1), ih unslashed.2, List.reverse_cons,
        List.append_assoc, List.singleton_append]

theorem names_join (base : String) :
    ∃ above, ∀ name, PlainName name → names (join base name) = above ++ [name] := by
  have relative {name : String} (plain : PlainName name) : isAbsolute name = false := by
    rw [isAbsolute, decide_eq_false_iff_not]
    intro first
    exact plain.unslashed (List.mem_of_head? first)
  have last {name : String} (plain : PlainName name) : splitNames [] name.toList = [name] := by
    rw [split_names_unslashed plain.unslashed, List.reverse_nil, List.nil_append,
      String.ofList_toList]
  by_cases empty : base.isEmpty = true
  · refine ⟨[], fun name plain => ?_⟩
    rw [join, empty, Bool.or_true, if_pos rfl, names, last plain, List.nil_append]
  · rw [Bool.not_eq_true] at empty
    by_cases ending : base.toList.getLast? = some '/'
    · obtain ⟨chars, shape⟩ := List.getLast?_eq_some_iff.1 ending
      refine ⟨splitNames [] chars, fun name plain => ?_⟩
      rw [join, relative plain, empty, Bool.or_false, if_neg Bool.false_ne_true, if_pos ending,
        names, String.toList_append, shape, List.append_assoc, List.singleton_append,
        split_names_append, last plain]
    · refine ⟨names base, fun name plain => ?_⟩
      have slash : "/".toList = ['/'] := rfl
      rw [join, relative plain, empty, Bool.or_false, if_neg Bool.false_ne_true, if_neg ending,
        names, String.toList_append, String.toList_append, slash, List.append_assoc,
        List.singleton_append, split_names_append, last plain, names]

end Path

namespace Disk

variable {disk : Disk} {hole place target : List String} {entry : DiskEntry} {path text : String}

theorem entry_of_ne_nil (inside : place ≠ []) :
    disk.entryOf? place = disk.entries.get? (placeText place) := by
  cases place with
  | nil => exact absurd rfl inside
  | cons name rest => rfl

theorem entry_put_self (inside : place ≠ []) :
    (disk.put place entry).entryOf? place = some entry := by
  rw [entry_of_ne_nil inside, put, SortedMap.get_insert, if_pos rfl]

theorem entry_put_ne (different : placeText place ≠ placeText hole) :
    (disk.put hole entry).entryOf? place = disk.entryOf? place := by
  cases place with
  | nil => rfl
  | cons name rest =>
      rw [entry_of_ne_nil (List.cons_ne_nil _ _), entry_of_ne_nil (List.cons_ne_nil _ _), put,
        SortedMap.get_insert, if_neg different]

theorem place_text_ne (inside : hole ≠ []) (outside : place ≠ [])
    (other : disk.entryOf? place ≠ disk.entryOf? hole) : placeText place ≠ placeText hole := by
  intro same
  rw [entry_of_ne_nil inside, entry_of_ne_nil outside, same] at other
  exact other rfl

theorem ne_nil_of_entry (closed : disk.entryOf? place ≠ some .directory) : place ≠ [] := by
  rintro rfl
  exact closed rfl

theorem directory_put (closed : disk.entryOf? hole ≠ some .directory)
    (directory : disk.entryOf? place = some .directory) :
    (disk.put hole entry).entryOf? place = some .directory := by
  by_cases topmost : place = []
  · rw [topmost]
    rfl
  · rw [entry_put_ne, directory]
    exact place_text_ne (ne_nil_of_entry closed) topmost fun same => closed (same ▸ directory)

theorem must_be_directory_ok {found : Option DiskEntry} :
    mustBeDirectory found = .ok () ↔ found = some .directory := by
  cases found with
  | none => simp [mustBeDirectory]
  | some entry => cases entry <;> simp [mustBeDirectory]

theorem follow_cons_ok {name next : String} {rest : List String} :
    disk.follow place (name :: next :: rest) = .ok target ↔
      ∃ inner, below place name = .ok inner ∧ disk.entryOf? inner = some .directory ∧
        disk.follow inner (next :: rest) = .ok target := by
  simp only [follow, Outcome.bind_eq_ok]
  constructor
  · rintro ⟨inner, led, _, directory, onward⟩
    exact ⟨inner, led, must_be_directory_ok.1 directory, onward⟩
  · rintro ⟨inner, led, directory, onward⟩
    exact ⟨inner, led, (), must_be_directory_ok.2 directory, onward⟩

theorem follow_put {names : List String} (closed : disk.entryOf? hole ≠ some .directory)
    (followed : disk.follow place names = .ok target) :
    (disk.put hole entry).follow place names = .ok target := by
  induction names generalizing place with
  | nil => exact followed
  | cons name rest ih =>
      cases rest with
      | nil => exact followed
      | cons next rest =>
          obtain ⟨inner, led, directory, onward⟩ := follow_cons_ok.1 followed
          exact follow_cons_ok.2 ⟨inner, led, directory_put closed directory, ih onward⟩

def along (place names : List String) : Except FileFault (List String) := names.foldlM below place

theorem along_of_follow {names : List String} (followed : disk.follow place names = .ok target) :
    along place names = .ok target := by
  induction names generalizing place with
  | nil => exact followed
  | cons name rest ih =>
      rw [along, List.foldlM_cons, Outcome.bind_eq_ok]
      cases rest with
      | nil => exact ⟨target, followed, rfl⟩
      | cons next rest =>
          obtain ⟨inner, led, _, onward⟩ := follow_cons_ok.1 followed
          exact ⟨inner, led, ih onward⟩

theorem below_plain {name : String} (plain : Path.PlainName name)
    (led : below place name = .ok target) : target = place ++ [name] := by
  rw [below, plain.elsewhere, if_neg Bool.false_ne_true, if_neg plain.notUp] at led
  split at led
  · cases led
  · exact (Except.ok.inj led).symm

theorem place_text_append_inj {left right : String}
    (same : placeText (place ++ [left]) = placeText (place ++ [right])) : left = right := by
  by_cases topmost : place = []
  · rw [topmost, placeText, placeText, List.nil_append, List.nil_append,
      String.intercalate_singleton, String.intercalate_singleton] at same
    exact same
  · rw [placeText, placeText,
      String.intercalate_append_of_ne_nil topmost (List.cons_ne_nil _ _),
      String.intercalate_append_of_ne_nil topmost (List.cons_ne_nil _ _),
      String.intercalate_singleton, String.intercalate_singleton] at same
    have chars := congrArg String.toList same
    simp only [String.toList_append, List.append_right_inj] at chars
    exact String.toList_injective chars

theorem find_eq_text :
    disk.find path = .text text ↔ accept path = .ok () ∧ ∃ place,
      disk.follow [] (Path.names path) = .ok place ∧
        disk.entryOf? place = some (.file text) := by
  have looked : disk.find path = .text text ↔ disk.look path = .ok (.file text) := by
    rw [find]
    split <;> simp_all
  rw [looked, look, Outcome.bind_eq_ok]
  constructor
  · rintro ⟨_, accepted, held⟩
    obtain ⟨place, followed, held⟩ := Outcome.bind_eq_ok.1 held
    refine ⟨accepted, place, followed, ?_⟩
    split at held
    · rename_i entry found
      rw [found, Except.ok.inj held]
    · cases held
  · rintro ⟨accepted, place, followed, found⟩
    refine ⟨(), accepted, Outcome.bind_eq_ok.2 ⟨place, followed, ?_⟩⟩
    rw [found]

theorem find_put (found : disk.find path = .text text)
    (closed : disk.entryOf? hole ≠ some .directory)
    (apart : ∀ place, disk.follow [] (Path.names path) = .ok place →
      disk.entryOf? place = some (.file text) → placeText place ≠ placeText hole) :
    (disk.put hole entry).find path = .text text := by
  obtain ⟨accepted, place, followed, held⟩ := find_eq_text.1 found
  refine find_eq_text.2 ⟨accepted, place, follow_put closed followed, ?_⟩
  rw [entry_put_ne (apart place followed held), held]

theorem find_put_new (found : disk.find path = .text text) (free : disk.entryOf? hole = none) :
    (disk.put hole entry).find path = .text text := by
  have closed : disk.entryOf? hole ≠ some .directory := by
    rw [free]
    exact nofun
  refine find_put found closed fun place _ held => ?_
  have file : disk.entryOf? place ≠ some .directory := by
    rw [held]
    exact nofun
  apply place_text_ne (ne_nil_of_entry closed) (ne_nil_of_entry file)
  rw [held, free]
  exact nofun

theorem find_ensure_directory (found : disk.find path = .text text) (place names : List String) :
    (disk.ensureDirectory place names).disk.find path = .text text := by
  rw [ensureDirectory]
  split
  · exact found
  · split
    · exact found
    · exact found
    · rename_i free
      exact find_put_new found free

theorem find_ensure_along (found : disk.find path = .text text) (place : List String) (made : Bool)
    (last names : List String) :
    (disk.ensureAlong place made last names).disk.find path = .text text := by
  induction names generalizing disk place made with
  | nil => exact find_ensure_directory found place last
  | cons name rest ih =>
      rw [ensureAlong]
      split
      · exact found
      · rename_i inner _
        split
        · exact ih found inner made
        · exact found
        · rename_i free
          exact ih (find_put_new found free) inner true

theorem find_make_directories (found : disk.find path = .text text) (directory : String) :
    (disk.makeDirectories directory).disk.find path = .text text := by
  rw [makeDirectories]
  split
  · exact found
  · exact find_ensure_along found _ _ _ _

theorem file_at_ok (written : disk.fileAt path = .ok place) :
    accept path = .ok () ∧ disk.follow [] (Path.names path) = .ok place ∧
      disk.entryOf? place ≠ some .directory := by
  obtain ⟨_, accepted, written⟩ := Outcome.bind_eq_ok.1 written
  dsimp only at written
  split at written
  · obtain ⟨_, _, failed⟩ := Outcome.bind_eq_ok.1 written
    cases failed
  · obtain ⟨there, followed, kept⟩ := Outcome.bind_eq_ok.1 written
    split at kept
    · cases kept
    · rename_i closed
      rw [← Except.ok.inj kept]
      exact ⟨accepted, followed, closed⟩

theorem find_write_self (succeeded : (disk.write path text).fault = none) :
    (disk.write path text).disk.find path = .text text := by
  rw [write] at succeeded ⊢
  split at succeeded
  · rename_i place written
    obtain ⟨accepted, followed, closed⟩ := file_at_ok written
    exact find_eq_text.2 ⟨accepted, place, follow_put closed followed,
      entry_put_self (ne_nil_of_entry closed)⟩
  · cases succeeded

theorem place_of_join {base name : String} (plain : Path.PlainName name) {above : List String}
    (names : Path.names (Path.join base name) = above ++ [name])
    (followed : disk.follow [] (Path.names (Path.join base name)) = .ok place) :
    ∃ directory, along [] above = .ok directory ∧ place = directory ++ [name] := by
  have led := along_of_follow followed
  rw [names, along, List.foldlM_append, Outcome.bind_eq_ok] at led
  obtain ⟨directory, reached, last⟩ := led
  rw [List.foldlM_cons, Outcome.bind_eq_ok] at last
  obtain ⟨_, below, same⟩ := last
  rw [← Except.ok.inj same]
  exact ⟨directory, reached, below_plain plain below⟩

/-- Files of other names in the same directory keep their texts. -/
theorem find_write_other {base name other new : String} (plain : Path.PlainName name)
    (otherPlain : Path.PlainName other) (different : name ≠ other)
    (found : disk.find (Path.join base name) = .text text) :
    (disk.write (Path.join base other) new).disk.find (Path.join base name) = .text text := by
  rw [write]
  split
  · rename_i hole written
    obtain ⟨_, led, closed⟩ := file_at_ok written
    refine find_put found closed fun place followed _ same => ?_
    obtain ⟨above, joined⟩ := Path.names_join base
    obtain ⟨directory, reached, rfl⟩ := place_of_join plain (joined name plain) followed
    obtain ⟨again, reachedAgain, rfl⟩ := place_of_join otherPlain (joined other otherPlain) led
    cases reached.symm.trans reachedAgain
    exact different (place_text_append_inj same)
  · exact found

end Disk

end PageBuilder
