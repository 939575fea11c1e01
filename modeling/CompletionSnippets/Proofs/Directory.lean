import CompletionSnippets.Directory

/-!
# Laws of files

Writing puts bytes into the one file that the path leads to, and leaves every other file as
it was. The same path then leads to that file and to these bytes: the new file takes no directory
away from under the path, and it makes no directory of its own path, as that path does not go on
behind itself. So directories are the states of a lawful file system.
-/
namespace CompletionSnippets.Directory

variable {d : Directory} {path : Path} {content : ByteArray}

/-- The directory with one file replaced or added. -/
def put (d : Directory) (path : Path) (content : ByteArray) : Directory where
  files := (path, content) :: d.files.filter fun file => file.1 != path

theorem lookup_put (d : Directory) (path : Path) (content : ByteArray) :
    (d.put path content).files.lookup path = some content :=
  List.lookup_cons_self

theorem lookup_filter_other {path other : Path} (h : other ≠ path) :
    ∀ files : List (Path × ByteArray),
      (files.filter fun file => file.1 != path).lookup other = files.lookup other
  | [] => rfl
  | (p, b) :: files => by
    have ih := lookup_filter_other h files
    by_cases hp : p = path
    · -- the file that goes is not the one that is looked for
      have hother : (other == p) = false := by simpa [hp] using h
      rw [List.filter_cons_of_neg (by simpa using hp), ih, List.lookup_cons, hother]
    · rw [List.filter_cons_of_pos (by simpa using hp), List.lookup_cons, List.lookup_cons, ih]

theorem lookup_put_other {other : Path} (h : other ≠ path) :
    (d.put path content).files.lookup other = d.files.lookup other := by
  have hother : (other == path) = false := by simpa using h
  rw [put, List.lookup_cons, hother]
  exact lookup_filter_other h d.files

theorem holdsDirectory_put {q : Path} (h : d.holdsDirectory q) :
    (d.put path content).holdsDirectory q := by
  rw [holdsDirectory, Bool.or_eq_true] at h ⊢
  refine h.imp_right fun hany => ?_
  obtain ⟨file, hfile, hq⟩ := List.any_eq_true.mp hany
  by_cases hp : file.1 = path
  · exact List.any_eq_true.mpr ⟨(path, content), List.mem_cons_self, hp ▸ hq⟩
  · have hkept : file ∈ d.files.filter fun file => file.1 != path :=
      List.mem_filter.mpr ⟨hfile, by simpa using hp⟩
    exact List.any_eq_true.mpr ⟨file, List.mem_cons_of_mem _ hkept, hq⟩

theorem holdsDirectory_put_self (h : d.holdsDirectory path = false) :
    (d.put path content).holdsDirectory path = false := by
  rw [holdsDirectory, Bool.or_eq_false_iff] at h ⊢
  refine ⟨h.1, List.any_eq_false.mpr fun file hfile => ?_⟩
  rcases List.mem_cons.mp hfile with rfl | hold
  · simp
  · exact List.any_eq_false.mp h.2 file (List.mem_filter.mp hold).1

/-- A name that is looked up, and not too long for that. -/
structure IsEntryName (name : Text) : Prop where
  moves : ¬ (name = [] || name = ['.'])
  inward : name ≠ ['.', '.']
  fits : ¬ nameLimit < name.utf8Length

theorem IsEntryName.ne_nil {name : Text} (h : IsEntryName name) : name ≠ [] := by
  rintro rfl
  exact h.moves rfl

/-- The names lead from a directory through directories to the path of a file. -/
inductive Leads (d : Directory) (path : Path) : Path → List Text → Prop
  | stay {here : Path} {name : Text} {rest : List Text} :
    name = [] || name = ['.'] → Leads d path here rest → Leads d path here (name :: rest)
  | up {here : Path} {rest : List Text} :
    Leads d path here.parent rest → Leads d path here (['.', '.'] :: rest)
  | enter {here : Path} {name : Text} {rest : List Text} :
    IsEntryName name → d.holdsDirectory (here ++ [name]) →
    Leads d path (here ++ [name]) rest → Leads d path here (name :: rest)
  | arrive {here : Path} {name : Text} :
    IsEntryName name → path = here ++ [name] → d.holdsDirectory path = false →
    path ≠ .nullDevice → Leads d path here [name]

/-- Names that come to a file lead to its path. -/
theorem leads_of_walk {access : Access} {old : Option ByteArray} {names : List Text} {here : Path}
    (h : d.walk access here names = .ok (.file path old)) : Leads d path here names := by
  induction names generalizing here with
  | nil => cases h
  | cons name rest ih =>
    rw [walk] at h
    split at h
    · rename_i hstay
      exact .stay hstay (ih h)
    rename_i hmoves
    split at h
    · rename_i hup
      exact hup ▸ .up (ih h)
    rename_i hinward
    split at h
    · cases h
    split at h
    · cases h
    rename_i hfits
    have hname : IsEntryName name := ⟨hmoves, hinward, hfits⟩
    simp only at h
    split at h
    · rename_i hdirectory
      exact .enter hname hdirectory (ih h)
    rename_i hdirectory
    split at h
    · split at h
      · cases h
      · rename_i hdevice
        obtain ⟨rfl, -⟩ := Place.file.inj (Except.ok.inj h)
        exact .arrive hname rfl (by simpa using hdirectory) hdevice
    · cases h
    · cases h

theorem not_all_isEmpty_of_leads {names : List Text} {here : Path} (h : Leads d path here names) :
    names.all List.isEmpty = false := by
  induction h with
  | stay _ _ ih => rw [List.all_cons, ih, Bool.and_false]
  | up _ _ => rfl
  | enter hname _ _ _ => simp [hname.ne_nil]
  | arrive hname _ _ _ => simp [hname.ne_nil]

/-- Whoever follows the names comes to the file that they lead to. -/
theorem walk_of_leads {access : Access} {names : List Text} {here : Path}
    (h : Leads d path here names) :
    d.walk access here names = .ok (.file path (d.files.lookup path)) := by
  induction h with
  | stay hstay _ ih => rw [walk, if_pos hstay, ih]
  | up _ ih => rw [walk, if_neg (by simp), if_pos rfl, ih]
  | enter hname hdirectory hrest ih =>
    rw [walk, if_neg hname.moves, if_neg hname.inward,
      if_neg (by simp [not_all_isEmpty_of_leads hrest]), if_neg hname.fits]
    simp only [hdirectory, if_true, ih]
  | arrive hname hpath hdirectory hdevice =>
    rw [walk, if_neg hname.moves, if_neg hname.inward, if_neg (by simp), if_neg hname.fits]
    simp only [← hpath, hdirectory, hdevice, Bool.false_eq_true, if_false]

/-- The way to a file is still there when the file is written. -/
theorem leads_put {names : List Text} {here : Path} (h : Leads d path here names) :
    Leads (d.put path content) path here names := by
  induction h with
  | stay hstay _ ih => exact .stay hstay ih
  | up _ ih => exact .up ih
  | enter hname hdirectory _ ih => exact .enter hname (holdsDirectory_put hdirectory) ih
  | arrive hname hpath hdirectory hdevice =>
    exact .arrive hname hpath (holdsDirectory_put_self hdirectory) hdevice

/-- The path, as it is written, leads to the path of a file. -/
structure LeadsTo (d : Directory) (written : Text) (path : Path) : Prop where
  isEmpty : written.isEmpty = false
  fits : ¬ pathLimit < written.utf8Length
  leads : Leads d path (if written.head? = some '/' then .root else []) (written.splitOn '/')

theorem LeadsTo.put {written : Text} (h : LeadsTo d written path) :
    LeadsTo (d.put path content) written path :=
  ⟨h.isEmpty, h.fits, leads_put h.leads⟩

theorem leadsTo_of_place {access : Access} {old : Option ByteArray} {written : Text}
    (h : d.place access written = .ok (.file path old)) : LeadsTo d written path := by
  unfold place at h
  split at h
  · cases h
  rename_i hwritten
  split at h
  · cases h
  rename_i hshort
  exact ⟨by simpa using hwritten, hshort, leads_of_walk h⟩

theorem LeadsTo.place {written : Text} (h : LeadsTo d written path) (access : Access) :
    d.place access written = .ok (.file path (d.files.lookup path)) := by
  rw [Directory.place, if_neg (by simp [h.isEmpty]), if_neg h.fits, walk_of_leads h.leads]

theorem LeadsTo.lookup_of_read {written : Text} (h : LeadsTo d written path)
    (hread : d.read written = .ok content) : d.files.lookup path = some content := by
  rw [read, h.place] at hread
  cases hfound : d.files.lookup path with
  | none => simp [hfound] at hread
  | some held => simpa [hfound] using hread

theorem LeadsTo.lookup_of_size {written : Text} {size : Nat} (h : LeadsTo d written path)
    (hsize : d.size written = .ok size) :
    ∃ content, d.files.lookup path = some content ∧ content.size = size := by
  rw [Directory.size, h.place] at hsize
  cases hfound : d.files.lookup path with
  | none => simp [hfound] at hsize
  | some held => exact ⟨held, rfl, by simpa [hfound] using hsize⟩

/-- The files of a directory, by their paths. -/
def view : FileView Directory where
  File := Path
  leads d written :=
    match d.place .writing written with
    | .ok (.file path _) => some path
    | _ => none
  content d path := d.files.lookup path

theorem view_leads_iff {written : Text} :
    view.leads d written = some path ↔ LeadsTo d written path := by
  constructor
  · intro h
    simp only [view] at h
    split at h
    · rename_i hplace
      obtain rfl := Option.some.inj h
      exact leadsTo_of_place hplace
    · contradiction
  · intro h
    simp only [view, h.place]

theorem write_of_leadsTo {written : Text} (h : LeadsTo d written path) :
    d.write written content = .ok (d.put path content) := by
  rw [write, h.place]
  rfl

theorem lookup_write_other {written : Text} {d' : Directory} (h : ¬ LeadsTo d written path)
    (hwrite : d.write written content = .ok d') : d'.files.lookup path = d.files.lookup path := by
  unfold write at hwrite
  split at hwrite
  · cases hwrite
  · cases hwrite
  · rw [Except.ok.inj hwrite]
  · rename_i other old hplace
    have hother : path ≠ other := by
      rintro rfl
      exact h (leadsTo_of_place hplace)
    rw [← Except.ok.inj hwrite]
    exact lookup_put_other hother

theorem lawful : fileSystem.Lawful view where
  size_eq hleads hsize := (view_leads_iff.mp hleads).lookup_of_size hsize
  read_eq hleads hread := (view_leads_iff.mp hleads).lookup_of_read hread
  map_eq hleads hread := (view_leads_iff.mp hleads).lookup_of_read hread
  write_holds {d d' written path content} hleads hwrite := by
    have hled := view_leads_iff.mp hleads
    simp only [fileSystem, write_of_leadsTo hled] at hwrite
    obtain ⟨-, rfl⟩ := Prod.mk.inj hwrite
    exact ⟨view_leads_iff.mpr hled.put, d.lookup_put path content⟩
  write_other {d d' written path content result} hleads hwrite := by
    simp only [fileSystem] at hwrite
    split at hwrite
    · rename_i hok
      obtain ⟨-, rfl⟩ := Prod.mk.inj hwrite
      exact lookup_write_other (mt view_leads_iff.mpr hleads) hok
    · obtain ⟨-, rfl⟩ := Prod.mk.inj hwrite
      rfl

end CompletionSnippets.Directory
