import CInterop.Files
import CInterop.Proofs.Success
import Mathlib.Data.List.TakeWhile

/-!
# Writing a file

A text is written as a whole or not at all. Whatever step of writing fails, every file has its text from
before and none was added; where all succeed, one file has changed, and the path that was named leads to
it. What carries this is that the temporary file goes away again in both cases, and that its directory
was there before it: nothing becomes a directory on its account.
-/

namespace CInterop.Files

variable {fs left : Files} {directory path text : String} {fault : Fault}

/-! ## Texts -/

theorem lookup_filter_ne {texts : List (String × String)} (path other : String) :
    (texts.filter (·.1 ≠ path)).lookup other = if other = path then none else texts.lookup other := by
  induction texts with
  | nil => simp
  | cons file rest ih =>
    obtain ⟨name, content⟩ := file
    by_cases hname : name = path
    · rw [List.filter_cons_of_neg (by simpa using hname), ih]
      by_cases hother : other = path
      · simp [hother]
      · have hne : (other == name) = false := by simpa [hname] using hother
        simp [hother, List.lookup_cons, hne]
    · rw [List.filter_cons_of_pos (by simpa using hname)]
      by_cases hother : other = path
      · subst hother
        have hne : (other == name) = false := by simpa using Ne.symm hname
        rw [List.lookup_cons, hne, if_pos rfl]
        rwa [if_pos rfl] at ih
      · rw [List.lookup_cons, List.lookup_cons, ih, if_neg hother, if_neg hother]

theorem text?_remove (other : String) :
    (fs.remove path).text? other = if other = path then none else fs.text? other :=
  lookup_filter_ne path other

theorem text?_put (other : String) :
    (fs.put path text).text? other = if other = path then some text else fs.text? other := by
  have hput : (fs.put path text).text? other =
      ((fs.remove path).text? other).or ([(path, text)].lookup other) := List.lookup_append
  rw [hput, text?_remove]
  by_cases hother : other = path
  · simp [hother]
  · have hne : (other == path) = false := by simpa using hother
    simp [hother, List.lookup_cons, hne]

theorem remove_eq_self (h : fs.text? path = none) : fs.remove path = fs := by
  have hall : fs.texts.filter (·.1 ≠ path) = fs.texts := by
    rw [List.filter_eq_self]
    intro file hfile
    have hne : path ≠ file.1 := by simpa using List.lookup_eq_none_iff.mp h file hfile
    simpa using Ne.symm hne
  unfold remove
  rw [hall]

theorem remove_put : (fs.put path text).remove path = fs.remove path := by
  unfold put remove
  simp [List.filter_append]

/-- A file that is new and has got its text goes away without a trace. -/
theorem remove_put_put {text' : String} (h : fs.text? path = none) :
    ((fs.put path text).put path text').remove path = fs := by
  rw [remove_put, remove_put, remove_eq_self h]

theorem move_put_put {text' target : String} (h : fs.text? path = none) :
    ((fs.put path text).put path text').move path target = fs.put target text' := by
  have hfound : ((fs.put path text).put path text').text? path = some text' := by simp [text?_put]
  unfold move
  rw [hfound]
  simp only [remove_put_put h]

/-! ## Directories -/

theorem isBelow_iff :
    isBelow directory path = true ↔ ∃ rest, path.toList = directory.toList ++ '/' :: rest := by
  unfold isBelow
  rw [List.isPrefixOf_iff_prefix]
  constructor
  · rintro ⟨rest, hrest⟩
    exact ⟨rest, by rw [← hrest]; simp⟩
  · rintro ⟨rest, hrest⟩
    exact ⟨rest, by rw [hrest]; simp⟩

theorem isBelow_trans {middle : String} (h : isBelow directory middle = true)
    (h' : isBelow middle path = true) : isBelow directory path = true := by
  obtain ⟨rest, hrest⟩ := isBelow_iff.mp h
  obtain ⟨rest', hrest'⟩ := isBelow_iff.mp h'
  exact isBelow_iff.mpr ⟨rest ++ '/' :: rest', by rw [hrest', hrest]; simp⟩

theorem isDirectory_iff : fs.isDirectory path = true ↔
    path = "/" ∨ (∃ d ∈ fs.directories, d = path ∨ isBelow path d = true) ∨
      ∃ file ∈ fs.texts, isBelow path file.1 = true := by
  simp [isDirectory, or_assoc]

/-- Above a directory there are only directories. -/
theorem isDirectory_of_isBelow (h : isBelow directory path = true) (hroot : directory.toList ≠ [])
    (hpath : fs.isDirectory path = true) : fs.isDirectory directory = true := by
  obtain rfl | ⟨d, hd, rfl | hbelow⟩ | ⟨file, hfile, hbelow⟩ := isDirectory_iff.mp hpath
  · -- only the empty text has the root below it
    obtain ⟨rest, hrest⟩ := isBelow_iff.mp h
    have hlength := congrArg List.length hrest
    have hpositive := List.length_pos_iff.mpr hroot
    simp at hlength
    omega
  · exact isDirectory_iff.mpr (.inr (.inl ⟨_, hd, .inr h⟩))
  · exact isDirectory_iff.mpr (.inr (.inl ⟨d, hd, .inr (isBelow_trans h hbelow)⟩))
  · exact isDirectory_iff.mpr (.inr (.inr ⟨file, hfile, isBelow_trans h hbelow⟩))

theorem isDirectory_put_iff {d : String} :
    (fs.put path text).isDirectory d = true ↔ fs.isDirectory d = true ∨ isBelow d path = true := by
  rw [isDirectory_iff, isDirectory_iff]
  constructor
  · rintro (h | h | ⟨file, hfile, hbelow⟩)
    · exact .inl (.inl h)
    · exact .inl (.inr (.inl h))
    · rcases List.mem_append.mp hfile with hfile | hfile
      · exact .inl (.inr (.inr ⟨file, (List.mem_filter.mp hfile).1, hbelow⟩))
      · rw [List.mem_singleton.mp hfile] at hbelow
        exact .inr hbelow
  · rintro ((h | h | ⟨file, hfile, hbelow⟩) | h)
    · exact .inl h
    · exact .inr (.inl h)
    · by_cases hname : file.1 = path
      · exact .inr (.inr ⟨_, List.mem_append_right _ (List.mem_singleton.mpr rfl), hname ▸ hbelow⟩)
      · refine .inr (.inr ⟨file, List.mem_append_left _ (List.mem_filter.mpr ⟨hfile, ?_⟩), hbelow⟩)
        simpa using hname
    · exact .inr (.inr ⟨_, List.mem_append_right _ (List.mem_singleton.mpr rfl), h⟩)

/-! ## Following a path -/

theorem pathOf_ne_empty (place : List (List Char)) : (pathOf place).toList ≠ [] := by
  simp [pathOf]

theorem follow_append {place : List (List Char)} (before after : List (List Char)) :
    fs.follow place (before ++ after) = (fs.follow place before >>= fun p => fs.follow p after) := by
  induction before generalizing place with
  | nil => rfl
  | cons part before ih =>
    rw [List.cons_append, follow, follow]
    split
    · rfl
    · split
      · exact ih
      · split
        · exact ih
        · exact ih

/-- A path is followed where there are more directories as well. -/
theorem follow_mono {fs' : Files} {parts place place' : List (List Char)}
    (hdirectory : ∀ p, fs.isDirectory (pathOf p) = true → fs'.isDirectory (pathOf p) = true)
    (h : fs.follow place parts = .ok place') : fs'.follow place parts = .ok place' := by
  induction parts generalizing place with
  | nil => exact h
  | cons part parts ih =>
    rw [follow] at h ⊢
    by_cases hplace : fs.isDirectory (pathOf place) = true
    · rw [if_neg (by simp [hplace])] at h
      rw [if_neg (by simp [hdirectory place hplace])]
      by_cases hstays : (part = [] || part = ['.']) = true
      · rw [if_pos hstays] at h ⊢
        exact ih h
      · rw [if_neg hstays] at h ⊢
        by_cases hup : part = ['.', '.']
        · rw [if_pos hup] at h ⊢
          exact ih h
        · rw [if_neg hup] at h ⊢
          exact ih h
    · rw [if_pos (by simpa using hplace)] at h
      cases h

theorem withoutTrailing_eq_self {parts : List (List Char)} (h : parts.getLast? ≠ some []) :
    withoutTrailing parts = parts := by
  unfold withoutTrailing
  rw [List.getLast?_eq_head?_reverse] at h
  cases hreverse : parts.reverse with
  | nil => simpa using hreverse.symm
  | cons last rest =>
    rw [hreverse, List.head?_cons] at h
    have hlast : last ≠ [] := by simpa using h
    rw [List.dropWhile_cons_of_neg (by simpa using hlast), ← hreverse, List.reverse_reverse]

/-- A path that ends in a directory is followed through it. -/
theorem follow_slash {before place : List (List Char)} (h : fs.follow [] (before ++ [[]]) = .ok place) :
    fs.follow [] before = .ok place ∧ fs.isDirectory (pathOf place) = true := by
  rw [follow_append, bind_eq_ok] at h
  obtain ⟨place', hbefore, hlast⟩ := h
  rw [follow] at hlast
  split at hlast
  · cases hlast
  · rename_i hdirectory
    cases hlast
    exact ⟨hbefore, by simpa using hdirectory⟩

/-- The target of a path is in a directory, under the name that is the last part of the path. -/
theorem target_eq_ok {place : String} (h : fs.target directory path = .ok place) :
    path.isEmpty = false ∧ ∃ before name above, partsFrom directory path = before ++ [name] ∧
      name ≠ [] ∧ name ≠ ['.'] ∧ name ≠ ['.', '.'] ∧ fs.follow [] before = .ok above ∧
      fs.isDirectory (pathOf above) = true ∧ place = pathOf (name :: above) := by
  unfold target at h
  split at h
  · cases h
  · rename_i hpath
    refine ⟨by simpa using hpath, ?_⟩
    dsimp only at h
    split at h
    · cases h
    · cases h
    · rename_i above hfollow
      split at h
      · cases h
      · cases h
      · cases h
      · rename_i name hdot hdots hname
        split at h
        · cases h
        · rename_i hslash
          split at h
          · cases h
          · cases h
            rw [withoutTrailing_eq_self hslash] at hfollow hname
            obtain ⟨hbefore, hdirectory⟩ := follow_slash hfollow
            refine ⟨_, name, above, (List.dropLast_append_getLast? _ hname).symm, ?_, ?_, ?_, hbefore,
              hdirectory, rfl⟩
            · rintro rfl
              exact hslash hname
            · exact hdot
            · exact hdots

/-- Where a file was put for a path to lead to it, the path does, as long as no directory is lost. -/
theorem locate?_of_target {place : String} (h : fs.target directory path = .ok place)
    (hkept : ∀ p, fs.isDirectory (pathOf p) = true → left.isDirectory (pathOf p) = true) :
    left.locate? directory path = some place := by
  obtain ⟨hpath, before, name, above, hparts, hempty, hdot, hdots, hbefore, habove, rfl⟩ := target_eq_ok h
  have hlast : left.follow above [name] = .ok (name :: above) := by
    rw [follow, if_neg (by simp [hkept above habove]), if_neg (by simp [hempty, hdot]), if_neg hdots,
      follow]
  have hwhole : left.follow [] (partsFrom directory path) = .ok (name :: above) := by
    rw [hparts, follow_append, follow_mono hkept hbefore]
    exact hlast
  unfold locate?
  rw [hpath, hwhole]
  rfl

/-! ## The temporary file -/

theorem letter_ne_slash (i : Fin 37) : Mark.letter i ≠ '/' := by
  revert i
  decide

theorem slash_notMem_text (mark : Mark) : '/' ∉ mark.text.toList := by
  intro h
  simp only [Mark.text, String.toList_ofList, List.mem_map] at h
  obtain ⟨i, -, hi⟩ := h
  exact letter_ne_slash i hi

theorem slash_notMem_base : '/' ∉ (Path.base path).toList := by
  intro h
  simp only [Path.base, String.toList_ofList, List.mem_reverse] at h
  simpa using List.mem_takeWhile_imp h

theorem eq_or_before_slash {before before' rest name : List Char} (hname : '/' ∉ name)
    (h : before ++ '/' :: rest = before' ++ '/' :: name) :
    before = before' ∨ ∃ between, before' = before ++ '/' :: between := by
  rcases List.append_eq_append_iff.mp h with ⟨between, hbefore, hrest⟩ | ⟨between, hbefore, hrest⟩
  · cases between with
    | nil => exact .inl (by simpa using hbefore.symm)
    | cons c between =>
      obtain ⟨rfl, -⟩ := List.cons.inj hrest
      exact .inr ⟨between, hbefore⟩
  · cases between with
    | nil => exact .inl (by simpa using hbefore)
    | cons c between =>
      -- the last slash is the one before the name
      obtain ⟨-, hin⟩ := List.cons.inj hrest
      exact absurd (by simp [hin]) hname

/-- What is above a file in a directory is the directory or above it. -/
theorem eq_or_isBelow_of_join {name : String} (hname : '/' ∉ name.toList)
    (h : isBelow directory (Path.join path name) = true) :
    directory = path ∨ isBelow directory path = true := by
  obtain ⟨rest, hrest⟩ := isBelow_iff.mp h
  unfold Path.join at hrest
  split at hrest
  · rename_i hslash
    obtain ⟨before, hbefore⟩ := List.getLast?_eq_some_iff.mp hslash
    have hjoined : directory.toList ++ '/' :: rest = before ++ '/' :: name.toList := by
      rw [← hrest, String.toList_append, hbefore]
      simp
    right
    rcases eq_or_before_slash hname hjoined with rfl | ⟨between, rfl⟩
    · exact isBelow_iff.mpr ⟨[], hbefore⟩
    · exact isBelow_iff.mpr ⟨between ++ ['/'], by simp [hbefore]⟩
  · have hjoined : directory.toList ++ '/' :: rest = path.toList ++ '/' :: name.toList := by
      rw [← hrest]
      simp
    rcases eq_or_before_slash hname hjoined with heq | ⟨between, hbetween⟩
    · exact .inl (String.toList_injective heq)
    · exact .inr (isBelow_iff.mpr ⟨between, hbetween⟩)

theorem slash_notMem_temporary (mark : Mark) :
    '/' ∉ (".tmp-" ++ mark.text ++ Path.base path).toList := by
  simp [slash_notMem_text mark, slash_notMem_base]

/-- Nothing becomes a directory through a temporary file in one. -/
theorem isDirectory_of_put_temporary {mark : Mark} {p : List (List Char)}
    (hdirectory : fs.isDirectory directory = true)
    (h : (fs.put (temporaryPath directory (Path.base path) mark) text).isDirectory (pathOf p) = true) :
    fs.isDirectory (pathOf p) = true := by
  rcases isDirectory_put_iff.mp h with h | hbelow
  · exact h
  · rcases eq_or_isBelow_of_join (slash_notMem_temporary mark) hbelow with heq | habove
    · rw [heq]
      exact hdirectory
    · exact isDirectory_of_isBelow habove (pathOf_ne_empty p) hdirectory

/-! ## The steps of writing -/

theorem atOnce_eq_ok {α : Type} {f : Files → Except Fault (α × Files)} {a : α}
    (h : Change.atOnce f fs = .ok a left) : f fs = .ok (a, left) := by
  unfold Change.atOnce at h
  split at h
  · cases h
    assumption
  · cases h

theorem atOnce_eq_error {α : Type} {f : Files → Except Fault (α × Files)}
    (h : Change.atOnce f fs = .error fault left) : f fs = .error fault ∧ left = fs := by
  unfold Change.atOnce at h
  split at h
  · cases h
  · cases h
    exact ⟨‹_›, rfl⟩

theorem makeDirectories_eq_ok (h : makeDirectories path fs = .ok () left) :
    left.texts = fs.texts ∧ left.isDirectory path = true := by
  replace h := atOnce_eq_ok h
  split at h
  · cases h
    exact ⟨rfl, ‹_›⟩
  · split at h
    · cases h
    · split at h
      · cases h
      · cases h
        exact ⟨rfl, isDirectory_iff.mpr (.inr (.inl ⟨path, by simp, .inl rfl⟩))⟩

theorem makeTemporary_eq_ok {suffix temporary : String} {marks : List Mark}
    (h : makeTemporary directory suffix marks fs = .ok temporary left) :
    fs.text? temporary = none ∧ (∃ mark, temporary = temporaryPath directory suffix mark) ∧
      left = fs.put temporary "" := by
  replace h := atOnce_eq_ok h
  dsimp only at h
  split at h
  · rename_i path hfind
    cases h
    have hfree := List.find?_some hfind
    obtain ⟨mark, -, hmark⟩ := List.mem_map.mp (List.mem_of_find?_eq_some hfind)
    simp only [Bool.and_eq_true, Option.isNone_iff_eq_none] at hfree
    exact ⟨hfree.1, ⟨mark, hmark.symm⟩, rfl⟩
  · cases h

theorem moveTo_eq_ok {source : String} (h : moveTo source directory path fs = .ok () left) :
    ∃ place, fs.target directory path = .ok place ∧ left = fs.move source place := by
  obtain ⟨place, hplace, hmove⟩ := bind_eq_ok.mp (atOnce_eq_ok h)
  cases hmove
  exact ⟨place, hplace, rfl⟩

theorem fill_eq_ok {content : Content} (h : fill path content fs = .ok () left) :
    ∃ text, content = .encodable text ∧ left = fs.put path text := by
  replace h := atOnce_eq_ok h
  cases content with
  | encodable text =>
    cases h
    exact ⟨text, rfl, rfl⟩
  | unencodable => cases h

theorem complete_eq_ok {temporary : String} {content : Content}
    (h : complete temporary directory path content fs = .ok () left) :
    ∃ text, content = .encodable text ∧
      moveTo temporary directory path (fs.put temporary text) = .ok () left := by
  unfold complete at h
  change EStateM.tryCatch _ _ fs = _ at h
  unfold EStateM.tryCatch at h
  split at h
  · cases h
  · obtain ⟨_, filled, hfill, hmove⟩ := Steps.bind_eq_ok h
    obtain ⟨text, hcontent, rfl⟩ := fill_eq_ok hfill
    exact ⟨text, hcontent, hmove⟩

/-- Whether the file could not be filled or not be moved, it is gone. -/
theorem complete_eq_error {temporary : String} {content : Content}
    (h : complete temporary directory path content fs = .error fault left) :
    left = fs.remove temporary := by
  unfold complete at h
  change EStateM.tryCatch _ _ fs = _ at h
  unfold EStateM.tryCatch at h
  split at h
  · rename_i hbody
    cases h
    rcases Steps.bind_eq_error hbody with hfill | ⟨_, filled, hfill, hmove⟩
    · rw [(atOnce_eq_error hfill).2]
      rfl
    · obtain ⟨text, -, rfl⟩ := fill_eq_ok hfill
      rw [(atOnce_eq_error hmove).2]
      exact remove_put
  · rename_i hbody
    exact absurd h (hbody _ _)

/-! ## The whole -/

/-- Where a text is written, one file is changed, and the path leads to it. -/
theorem write_eq_ok {content : Content} {marks : List Mark}
    (h : write directory path content marks fs = .ok () left) :
    ∃ text place, content = .encodable text ∧ left.locate? directory path = some place ∧
      left.text? place = some text ∧ ∀ other, other ≠ place → left.text? other = fs.text? other := by
  obtain ⟨_, opened, hopened, hrest⟩ := Steps.bind_eq_ok h
  obtain ⟨temporary, begun, hbegun, hcomplete⟩ := Steps.bind_eq_ok hrest
  obtain ⟨htexts, hdirectory⟩ := makeDirectories_eq_ok hopened
  obtain ⟨hnew, ⟨mark, hmark⟩, rfl⟩ := makeTemporary_eq_ok hbegun
  obtain ⟨text, hcontent, hmoved⟩ := complete_eq_ok hcomplete
  obtain ⟨place, hplace, rfl⟩ := moveTo_eq_ok hmoved
  rw [move_put_put hnew]
  refine ⟨text, place, hcontent, locate?_of_target hplace fun p hp => ?_, by rw [text?_put, if_pos rfl], ?_⟩
  · -- the temporary file is in the directory that was opened, so it makes no other one
    rw [hmark] at hp
    exact isDirectory_put_iff.mpr (.inl (isDirectory_of_put_temporary hdirectory
      (isDirectory_of_put_temporary (isDirectory_put_iff.mpr (.inl hdirectory)) hp)))
  · intro other hother
    rw [text?_put, if_neg hother]
    unfold text?
    rw [htexts]

/-- Where writing fails, no file has changed, and none was added. -/
theorem write_eq_error {content : Content} {marks : List Mark}
    (h : write directory path content marks fs = .error fault left) : left.texts = fs.texts := by
  rcases Steps.bind_eq_error h with hopened | ⟨_, opened, hopened, hrest⟩
  · rw [(atOnce_eq_error hopened).2]
  · obtain ⟨htexts, -⟩ := makeDirectories_eq_ok hopened
    rcases Steps.bind_eq_error hrest with hbegun | ⟨temporary, begun, hbegun, hcomplete⟩
    · rw [(atOnce_eq_error hbegun).2, htexts]
    · obtain ⟨hnew, -, rfl⟩ := makeTemporary_eq_ok hbegun
      rw [complete_eq_error hcomplete, remove_put, remove_eq_self hnew, htexts]

end CInterop.Files
