import Facade.CommandLine.Files

/-!
# What writing does to a directory

A place in the directory of a run is reached through directories alone, by names that each lead one
level down: `Reached` says so, and `Reached.walk` that every walk keeps to it. A text that is put
under a path therefore makes no directory, and `entry_put` follows: it stands at the place that the
path leads to, and at every other place stands what stood there before. `read_put` reads it back.
-/

set_option autoImplicit false

namespace Facade.CommandLine

/-! ### Names on a path -/

/-- A name that leads to a place one level down. -/
structure IsName (name : Step) : Prop where
  ne_nil : name ≠ []
  no_slash : '/' ∉ name
  ne_here : name ≠ here
  ne_above : name ≠ above

/-- A character other than a slash goes to the first name of a path. -/
theorem partsOfPath_cons {c : Char} (hc : c ≠ '/') {text : List Char} {part : Step}
    {more : List Step} (h : partsOfPath text = part :: more) :
    partsOfPath (c :: text) = (c :: part) :: more := by
  rw [partsOfPath, if_neg hc, h]

/-- There is no slash in a name on a path. -/
theorem no_slash_of_mem_partsOfPath {text : List Char} {part : Step}
    (h : part ∈ partsOfPath text) : '/' ∉ part := by
  induction text generalizing part with
  | nil =>
    rw [partsOfPath, List.mem_singleton] at h
    exact h ▸ List.not_mem_nil
  | cons c rest ih =>
    by_cases hc : c = '/'
    · rw [partsOfPath, if_pos hc, List.mem_cons] at h
      rcases h with rfl | h
      · exact List.not_mem_nil
      · exact ih h
    · rw [partsOfPath, if_neg hc] at h
      cases hparts : partsOfPath rest with
      | nil =>
        rw [hparts] at h
        rw [List.mem_singleton.mp h, List.mem_singleton]
        exact fun heq => hc heq.symm
      | cons next more =>
        rw [hparts] at h
        rcases List.mem_cons.mp h with rfl | h
        · have hnext := ih (hparts ▸ List.mem_cons_self)
          rw [List.mem_cons, not_or]
          exact ⟨fun heq => hc heq.symm, hnext⟩
        · exact ih (hparts ▸ List.mem_cons_of_mem next h)

/-- Without a slash, a path is one name. -/
theorem partsOfPath_of_no_slash {name : Step} (h : '/' ∉ name) : partsOfPath name = [name] := by
  induction name with
  | nil => rfl
  | cons c rest ih =>
    rw [List.mem_cons, not_or] at h
    exact partsOfPath_cons (fun heq => h.1 heq.symm) (ih h.2)

/-- The first slash ends the first name. -/
theorem partsOfPath_append_slash {name : Step} (h : '/' ∉ name) (rest : List Char) :
    partsOfPath (name ++ '/' :: rest) = name :: partsOfPath rest := by
  induction name with
  | nil => rw [List.nil_append, partsOfPath, if_pos rfl]
  | cons c more ih =>
    rw [List.mem_cons, not_or] at h
    exact partsOfPath_cons (fun heq => h.1 heq.symm) (ih h.2)

/-- Names with slashes between them are a path of those names. -/
theorem partsOfPath_intercalate {names : List Step} (hne : names ≠ [])
    (h : ∀ name ∈ names, '/' ∉ name) : partsOfPath (['/'].intercalate names) = names := by
  induction names with
  | nil => exact absurd rfl hne
  | cons name rest ih =>
    have hname := h name List.mem_cons_self
    cases rest with
    | nil => simpa using partsOfPath_of_no_slash hname
    | cons next more =>
      have hrest := ih (List.cons_ne_nil next more) fun other hother =>
        h other (List.mem_cons_of_mem name hother)
      rw [List.intercalate_cons_cons, List.append_assoc, List.singleton_append,
        partsOfPath_append_slash hname, hrest]

/-- Names between slashes are the way to the file under that name. -/
theorem Files.stepsOf_intercalate {names : List Step} (hne : names ≠ [])
    (h : ∀ name ∈ names, IsName name) :
    Files.stepsOf (String.ofList (['/'].intercalate names)) = names := by
  have hparts : partsOfPath (String.ofList (['/'].intercalate names)).toList = names := by
    rw [String.toList_ofList]
    exact partsOfPath_intercalate hne fun name hname => (h name hname).no_slash
  have hsteps : names.filter (· ≠ []) = names :=
    List.filter_eq_self.mpr fun name hname => decide_eq_true (h name hname).ne_nil
  rw [Files.stepsOf, stepsOfPath, hparts, hsteps]
  exact List.filter_eq_self.mpr fun name hname => decide_eq_true (h name hname).ne_here

namespace Files

/-! ### Walks -/

/-- A place that can be reached: every place around it is a directory, and the names on the way to
it lead down. -/
inductive Reached (files : Files) : Location → Prop
  | outside (names : List Step) : Reached files (.outside names)
  | start : Reached files (.inside [])
  | child {names : List Step} {name : Step} (around : Reached files (.inside names))
      (directory : files.isDirectory names.reverse = true) (isName : IsName name) :
      Reached files (.inside (name :: names))

variable {files : Files} {place : Location} {names : List Step}

/-- The place around one that can be reached can be reached. -/
theorem Reached.parent (h : Reached files place) : Reached files place.parent := by
  cases h with
  | outside names => exact .outside names.tail
  | start => exact .outside _
  | child around _ _ => exact around

/-- The names on the way to a place that can be reached lead down. -/
theorem Reached.isName (h : Reached files (.inside names)) : ∀ name ∈ names, IsName name := by
  induction names with
  | nil => exact fun name hname => absurd hname List.not_mem_nil
  | cons next rest ih =>
    cases h with
    | child around _ isName =>
      intro name hname
      rcases List.mem_cons.mp hname with rfl | hname
      · exact isName
      · exact ih around name hname

/-- Whatever leads to a place that can be reached is a directory. -/
theorem Reached.isDirectory (h : Reached files (.inside names)) {front : List Step}
    (hfront : front <+: names.reverse) (hlt : front.length < names.length) :
    files.isDirectory front = true := by
  induction names with
  | nil => exact absurd hlt (Nat.not_lt_zero _)
  | cons name rest ih =>
    cases h with
    | child around directory _ =>
      rw [List.reverse_cons, List.prefix_concat_iff] at hfront
      rcases hfront with heq | hfront
      · -- The whole way is too long to be a part of it.
        rw [heq, List.length_append, List.length_reverse, List.length_cons] at hlt
        exact absurd hlt (Nat.lt_irrefl _)
      · by_cases hrest : front.length < rest.length
        · exact ih around hfront hrest
        · have hlength : front.length = rest.reverse.length := by
            have := hfront.length_le
            rw [List.length_reverse] at this ⊢
            omega
          rw [hfront.eq_of_length hlength]
          exact directory

/-- Names lead to a directory if there are none, or if they begin the way to a file. -/
theorem isDirectory_iff {front : List Step} :
    files.isDirectory front = true ↔ front = []
      ∨ ∃ entry ∈ files.entries,
          front <+: stepsOf entry.1 ∧ front.length < (stepsOf entry.1).length := by
  simp only [isDirectory, Bool.or_eq_true, List.isEmpty_iff, List.any_eq_true, Bool.and_eq_true,
    List.isPrefixOf_iff_prefix, decide_eq_true_eq]

/-- A directory at a place is one by its path. -/
theorem isDirectory_of_entry (h : files.entry (.inside names) = .directory) :
    files.isDirectory names.reverse = true := by
  cases hdirectory : files.isDirectory names.reverse with
  | true => rfl
  | false =>
    rw [entry, hdirectory] at h
    cases hfind : files.find? names.reverse with
    | none => simp [hfind] at h
    | some found => simp [hfind] at h

/-- A name on a path that is not one of the two with a meaning of their own leads down. -/
theorem isName_of_mem_stepsOfPath {path : String} {name : Step} (h : name ∈ stepsOfPath path)
    (hhere : name ≠ here) (habove : name ≠ above) : IsName name := by
  rw [stepsOfPath, List.mem_filter] at h
  exact ⟨of_decide_eq_true h.2, no_slash_of_mem_partsOfPath h.1, hhere, habove⟩

/-- A walk goes on from a directory alone. -/
theorem walk_cons_eq_ok_iff {name : Step} {rest : List Step} {found : Location} :
    files.walk place (name :: rest) = .ok found
      ↔ files.entry place = .directory
        ∧ (if name = here then files.walk place rest
          else if name = above then files.walk place.parent rest
          else if maxStepBytes < (String.ofList name).utf8ByteSize then .error .nameTooLong
          else files.walk (place.child name) rest) = .ok found := by
  rw [walk]
  cases files.entry place <;> simp

/-- A path leads to a place if it is neither empty nor too long, and the walk along it does. -/
theorem locate_eq_ok_iff {path : String} :
    files.locate path names = .ok place
      ↔ path ≠ "" ∧ path.utf8ByteSize ≤ maxPathBytes
        ∧ files.walk (.ofPath path) names = .ok place := by
  rw [locate]
  by_cases hempty : path = ""
  · simp [hempty]
  · by_cases hlong : maxPathBytes < path.utf8ByteSize
    · simp [hempty, hlong, Nat.not_le.mpr hlong]
    · simp [hempty, hlong, Nat.not_lt.mp hlong]

/-- A walk from a place that can be reached ends at another. -/
theorem Reached.walk {steps : List Step} {found : Location} (h : Reached files place)
    (hsteps : ∀ name ∈ steps, name ≠ here → name ≠ above → IsName name)
    (hwalk : files.walk place steps = .ok found) : Reached files found := by
  induction steps generalizing place with
  | nil =>
    rw [Files.walk] at hwalk
    exact Except.ok.inj hwalk ▸ h
  | cons name rest ih =>
    have hrest : ∀ other ∈ rest, other ≠ here → other ≠ above → IsName other :=
      fun other hother => hsteps other (List.mem_cons_of_mem name hother)
    obtain ⟨hentry, hwalk⟩ := walk_cons_eq_ok_iff.mp hwalk
    by_cases hhere : name = here
    · rw [if_pos hhere] at hwalk
      exact ih h hrest hwalk
    · rw [if_neg hhere] at hwalk
      by_cases habove : name = above
      · rw [if_pos habove] at hwalk
        exact ih h.parent hrest hwalk
      · rw [if_neg habove] at hwalk
        split at hwalk
        · exact absurd hwalk (by simp)
        · refine ih ?_ hrest hwalk
          cases place with
          | outside names => exact .outside _
          | inside names =>
            exact .child h (isDirectory_of_entry hentry)
              (hsteps name List.mem_cons_self hhere habove)

/-- The place that a path can be written to can be reached. -/
theorem reached_of_target {path : String} (h : files.target path = .ok place) :
    Reached files place := by
  refine Reached.walk ?_ ?_ (locate_eq_ok_iff.mp h).2.2
  · rw [Location.ofPath]
    split
    · exact .outside []
    · exact .start
  · intro name hname hhere habove
    split at hname
    · rcases List.mem_append.mp hname with hname | hname
      · exact isName_of_mem_stepsOfPath (List.dropLast_subset _ hname) hhere habove
      · exact absurd (List.mem_singleton.mp hname) hhere
    · exact isName_of_mem_stepsOfPath hname hhere habove

/-! ### What is put under a path -/

/-- A path can be written to if it leads to a place that is no directory and has room. -/
theorem refusesWriting_eq_none_iff {path : String} :
    files.refusesWriting path = none
      ↔ ∃ place, files.target path = .ok place ∧ files.entry place ≠ .directory
          ∧ files.entry place ≠ .device .full := by
  rw [refusesWriting]
  cases htarget : files.target path with
  | error fault => simp
  | ok place =>
    cases hentry : files.entry place with
    | device device => cases device <;> simp [hentry]
    | _ => simp [hentry]

section Put

variable {path : String} (text : String) (htarget : files.target path = .ok (.inside names))
  (hentry : files.entry (.inside names) ≠ .directory)

include htarget in
/-- A text that is put under a path takes the place of the file there. -/
theorem put_eq :
    files.put path text = ⟨files.entries.filter (fun entry => stepsOf entry.1 ≠ names.reverse)
      ++ [(files.nameOf names.reverse, text)]⟩ := by
  rw [put, htarget]

include hentry in
/-- Where a text can be put, there is no directory. -/
theorem not_isDirectory_target : files.isDirectory names.reverse = false := by
  cases hdirectory : files.isDirectory names.reverse with
  | false => rfl
  | true => exact absurd (by rw [entry, if_pos hdirectory]) hentry

include htarget hentry

/-- The name under which the text is put leads to its place. -/
theorem stepsOf_nameOf : stepsOf (files.nameOf names.reverse) = names.reverse := by
  have hreached := reached_of_target htarget
  have hne : names.reverse ≠ [] := by
    intro hnil
    have hdirectory := not_isDirectory_target hentry
    simp [isDirectory, hnil] at hdirectory
  rw [nameOf]
  cases hfind : files.find? names.reverse with
  | none =>
    exact stepsOf_intercalate hne fun name hname =>
      hreached.isName name (List.mem_reverse.mp hname)
  | some found =>
    rw [find?] at hfind
    simpa using List.find?_some hfind

/-- No directory is made, and none is lost. -/
theorem isDirectory_put (front : List Step) :
    (files.put path text).isDirectory front = files.isDirectory front := by
  have hname := stepsOf_nameOf htarget hentry
  rw [put_eq text htarget, Bool.eq_iff_iff, isDirectory_iff, isDirectory_iff]
  constructor
  · rintro (hnil | ⟨other, hin, hfront, hlt⟩)
    · exact .inl hnil
    · rcases List.mem_append.mp hin with hin | hin
      · exact .inr ⟨other, (List.mem_filter.mp hin).1, hfront, hlt⟩
      · -- The way to the text leads through directories that were there before.
        cases List.mem_singleton.mp hin
        rw [hname] at hfront hlt
        rw [List.length_reverse] at hlt
        exact isDirectory_iff.mp ((reached_of_target htarget).isDirectory hfront hlt)
  · rintro (hnil | ⟨other, hin, hfront, hlt⟩)
    · exact .inl hnil
    · by_cases hother : stepsOf other.1 = names.reverse
      · rw [hother, ← hname] at hfront hlt
        exact .inr ⟨_, List.mem_append_right _ (List.mem_singleton.mpr rfl), hfront, hlt⟩
      · exact .inr ⟨other, List.mem_append_left _
          (List.mem_filter.mpr ⟨hin, decide_eq_true hother⟩), hfront, hlt⟩

/-- The text is found at its place, and all else where it was. -/
theorem find?_put (others : List Step) :
    (files.put path text).find? others
      = if others = names.reverse then some (files.nameOf names.reverse, text)
        else files.find? others := by
  have hname := stepsOf_nameOf htarget hentry
  rw [put_eq text htarget, find?, List.find?_append]
  -- The entries that are kept all lead elsewhere, so the search ends at the text or not at all.
  by_cases hothers : others = names.reverse
  · have hnone : (files.entries.filter fun entry => stepsOf entry.1 ≠ names.reverse).find?
        (fun entry => stepsOf entry.1 == others) = none := by
      rw [List.find?_eq_none]
      intro entry hin
      simpa [hothers] using (List.mem_filter.mp hin).2
    rw [hnone, if_pos hothers, hothers]
    simp [hname]
  · have hsame : (files.entries.filter fun entry => stepsOf entry.1 ≠ names.reverse).find?
        (fun entry => stepsOf entry.1 == others) = files.find? others := by
      rw [List.find?_filter, find?]
      refine congrArg (files.entries.find? ·) (funext fun entry => ?_)
      by_cases heq : stepsOf entry.1 = others
      · simp [heq, hothers]
      · simp [heq]
    rw [hsame, if_neg hothers]
    simp [hname, Ne.symm hothers]

/-- What stands at the places of the system once a text was put under a path. -/
theorem entry_put (other : Location) :
    (files.put path text).entry other
      = if other = .inside names then .file (files.nameOf names.reverse) text
        else files.entry other := by
  cases other with
  | outside others => simp [entry]
  | inside others =>
    rw [entry, isDirectory_put text htarget hentry, find?_put text htarget hentry]
    by_cases hothers : others = names
    · simp [hothers, not_isDirectory_target hentry]
    · have hreverse : others.reverse ≠ names.reverse := fun h => hothers (List.reverse_inj.mp h)
      simp [hothers, entry]

/-! ### Reading it back -/

omit htarget in
/-- A walk that ends does not notice what stands where it could not pass. -/
theorem walk_put {steps : List Step} {place found : Location}
    (hput : ∀ other ≠ Location.inside names,
      (files.put path text).entry other = files.entry other)
    (hwalk : files.walk place steps = .ok found) :
    (files.put path text).walk place steps = .ok found := by
  induction steps generalizing place with
  | nil => simpa [walk] using hwalk
  | cons name rest ih =>
    obtain ⟨hplace, hwalk⟩ := walk_cons_eq_ok_iff.mp hwalk
    -- The walk goes on from a directory, and the text was not put in the place of one.
    have hne : place ≠ .inside names := by
      rintro rfl
      exact hentry hplace
    refine walk_cons_eq_ok_iff.mpr ⟨(hput place hne).trans hplace, ?_⟩
    by_cases hhere : name = here
    · rw [if_pos hhere] at hwalk ⊢
      exact ih hwalk
    · rw [if_neg hhere] at hwalk ⊢
      by_cases habove : name = above
      · rw [if_pos habove] at hwalk ⊢
        exact ih hwalk
      · rw [if_neg habove] at hwalk ⊢
        by_cases hlong : maxStepBytes < (String.ofList name).utf8ByteSize
        · exact absurd hwalk (by simp [hlong])
        · rw [if_neg hlong] at hwalk ⊢
          exact ih hwalk

end Put

/-- What a walk goes on from behind all names but the last is a directory. -/
theorem isDirectory_of_walk_here {steps : List Step} {start : Location}
    (h : files.walk start (steps ++ [here]) = .ok place) : files.entry place = .directory := by
  induction steps generalizing start with
  | nil =>
    obtain ⟨hentry, hwalk⟩ := walk_cons_eq_ok_iff.mp h
    rw [if_pos rfl, walk] at hwalk
    exact Except.ok.inj hwalk ▸ hentry
  | cons name rest ih =>
    obtain ⟨-, hwalk⟩ := walk_cons_eq_ok_iff.mp h
    split at hwalk
    · exact ih hwalk
    · split at hwalk
      · exact ih hwalk
      · split at hwalk
        · exact absurd hwalk (by simp)
        · exact ih hwalk

/-- A path with a slash at the end can only be that of a directory. -/
theorem endsInSlash_of_target {path : String} (htarget : files.target path = .ok place)
    (hentry : files.entry place ≠ .directory) : endsInSlash path = false := by
  cases hslash : endsInSlash path with
  | false => rfl
  | true =>
    rw [target, if_pos hslash] at htarget
    exact absurd (isDirectory_of_walk_here (locate_eq_ok_iff.mp htarget).2.2) hentry

/-- A text that is put under a path is read from there. -/
theorem read_put {path : String} (text : String) (htarget : files.target path = .ok (.inside names))
    (hentry : files.entry (.inside names) ≠ .directory) :
    (files.put path text).read path = .ok text := by
  have hput := entry_put text htarget hentry
  have hslash := endsInSlash_of_target htarget hentry
  have hsource : (files.put path text).source path = .ok (.inside names) := by
    rw [target, hslash] at htarget
    rw [source, hslash]
    obtain ⟨hempty, hlong, hwalk⟩ := locate_eq_ok_iff.mp htarget
    have hothers (other : Location) (hother : other ≠ .inside names) :
        (files.put path text).entry other = files.entry other := by
      rw [hput, if_neg hother]
    exact locate_eq_ok_iff.mpr ⟨hempty, hlong, walk_put text hentry hothers hwalk⟩
  have hfound := hput (.inside names)
  rw [if_pos rfl] at hfound
  simp only [read, hsource, bind, Except.bind, hfound]

end Files

end Facade.CommandLine
