import GrantPlan.Disk.Tree
import GrantPlan.Proofs.Traversal
/-!
# What is written into a tree

A file that has been written holds its text afterwards, and it still does when another file of the
same directory has been written after it (`hasFile_of_writeText`).

The reason is that a path is followed through directories only. A file is put where no directory
stands, so every way that led somewhere before leads there still (`follow_put`).
-/

namespace GrantPlan

/-- The names of a file in a directory end with the name of the file. -/
theorem Path.exists_names_join (folder : String) : ∃ front, ∀ file, '/' ∉ file.toList →
    Path.names (Path.join folder file) = front ++ [file] := by
  have hfile : ∀ file : String, '/' ∉ file.toList →
      (file.toList.splitOn '/').map String.ofList = [file] := by
    intro file h
    rw [List.splitOn_eq_singleton h, List.map_singleton, String.ofList_toList]
  unfold Path.names Path.join
  by_cases hempty : folder = ""
  · refine ⟨[], fun file h => ?_⟩
    simp [hempty, hfile file h]
  · by_cases hslash : folder.toList.getLast? = some '/'
    · obtain ⟨front, hfront⟩ := List.getLast?_eq_some_iff.1 hslash
      refine ⟨(front.splitOn '/').map String.ofList, fun file h => ?_⟩
      simp [hfront, List.splitOn_append_cons_self, hfile file h]
    · refine ⟨(folder.toList.splitOn '/').map String.ofList, fun file h => ?_⟩
      simp [hempty, hslash, List.splitOn_append_cons_self, hfile file h]

namespace DiskTree

variable {tree : DiskTree} {here place directory : Place} {path folder file : String}

/-! ## One change elsewhere -/

/-- Writing at one place leaves every other place alone. -/
theorem entry_put_of_ne {p : Place} {entry : DiskEntry} (h : place ≠ p) :
    DiskTree.entry? (tree.put p entry) place = tree.entry? place := by
  unfold DiskTree.entry? DiskTree.put
  simp [OrderedMap.get?_insert, h]

/-- What there was is still there after writing, if not as it was. -/
theorem isSome_entry_put {p : Place} {entry : DiskEntry}
    (h : (tree.entry? place).isSome = true) :
    (DiskTree.entry? (tree.put p entry) place).isSome = true := by
  unfold DiskTree.entry? DiskTree.put at *
  simp only [OrderedMap.get?_insert] at h ⊢
  grind

/-- A name is followed from a directory only. -/
theorem entry_of_nextPlace {name : String} (h : tree.nextPlace here name = .ok place) :
    tree.entry? here = some .directory := by
  unfold nextPlace at h
  split at h
  next => cases h
  next => cases h
  next hhere => exact hhere

/-- Where a name leads to depends on the entry that it starts from, and on no other. -/
theorem nextPlace_congr {tree' : DiskTree} {name : String}
    (h : tree'.entry? here = tree.entry? here) :
    tree'.nextPlace here name = tree.nextPlace here name := by
  unfold nextPlace
  rw [h]

theorem nextPlace_put {p : Place} {entry : DiskEntry} {name : String}
    (h : tree.nextPlace here name = .ok place) (hp : tree.entry? p ≠ some .directory) :
    (tree.put p entry).nextPlace here name = .ok place := by
  have hne : here ≠ p := fun heq => hp (heq ▸ entry_of_nextPlace h)
  rw [nextPlace_congr (entry_put_of_ne hne), h]

/-- The way along some names stays the same when something is put where no directory stands. -/
theorem follow_put {p : Place} {entry : DiskEntry} {names : List String}
    (h : tree.follow here names = .ok place) (hp : tree.entry? p ≠ some .directory) :
    (tree.put p entry).follow here names = .ok place := by
  unfold follow at h ⊢
  induction names generalizing here with
  | nil => exact h
  | cons name names ih =>
    rw [List.foldlM_cons] at h ⊢
    obtain ⟨middle, hstep, hrest⟩ := bind_eq_ok_iff.1 h
    obtain ⟨place', hnext, hsome⟩ := bind_eq_ok_iff.1 hstep
    split at hsome
    next hentry =>
      obtain rfl := Except.ok.inj hsome
      refine bind_eq_ok_iff.2 ⟨place', ?_, ih hrest⟩
      refine bind_eq_ok_iff.2 ⟨place', nextPlace_put hnext hp, ?_⟩
      rw [if_pos (isSome_entry_put hentry)]
    next => cases hsome

theorem follow_concat {name : String} {names : List String}
    (h : tree.follow here names = .ok directory) (hnext : tree.nextPlace directory name = .ok place)
    (hentry : (tree.entry? place).isSome = true) :
    tree.follow here (names ++ [name]) = .ok place := by
  unfold follow at h ⊢
  rw [List.foldlM_append]
  refine bind_eq_ok_iff.2 ⟨directory, h, ?_⟩
  rw [List.foldlM_cons]
  refine bind_eq_ok_iff.2 ⟨place, bind_eq_ok_iff.2 ⟨place, hnext, ?_⟩, rfl⟩
  rw [if_pos hentry]

/-! ## A file in a directory -/

/-- A path leads to a directory, and by its last name to a place in it. -/
structure LeadsTo (tree : DiskTree) (path : String) (directory : Place) (file : String) : Prop where
  way : ∃ here names, tree.start path = .ok (here, names ++ [file]) ∧
    tree.follow here names = .ok directory
  last : tree.nextPlace directory file = .ok (directory ++ [file])

/-- What a path leads to stays the same when something is put where no directory stands. -/
theorem LeadsTo.put {p : Place} {entry : DiskEntry} (h : tree.LeadsTo path directory file)
    (hp : tree.entry? p ≠ some .directory) : (tree.put p entry).LeadsTo path directory file := by
  obtain ⟨⟨here, names, hstart, hfollow⟩, hlast⟩ := h
  exact ⟨⟨here, names, hstart, follow_put hfollow hp⟩, nextPlace_put hlast hp⟩

/-- A path that leads to a place is located there once the place has an entry. -/
theorem LeadsTo.locate_eq {entry : DiskEntry} (h : tree.LeadsTo path directory file)
    (hentry : tree.entry? (directory ++ [file]) = some entry) :
    tree.locate path = .ok (directory ++ [file], entry) := by
  obtain ⟨⟨here, names, hstart, hfollow⟩, hlast⟩ := h
  have hwhole := follow_concat hfollow hlast (by rw [hentry]; rfl)
  unfold locate
  refine bind_eq_ok_iff.2 ⟨_, hstart, bind_eq_ok_iff.2 ⟨_, hwhole, ?_⟩⟩
  rw [hentry]
  rfl

/-- A name of a file that stands for itself in a path. -/
structure IsPlainName (name : String) : Prop where
  slash_notMem : '/' ∉ name.toList
  not_idle : Path.isIdle name = false
  ne_parent : name ≠ ".."

theorem IsPlainName.ne_empty (h : IsPlainName file) : file ≠ "" := by
  rintro rfl
  exact absurd h.not_idle (by decide)

/-- The way to a file in a directory begins where the path does, and ends with the file. -/
theorem exists_start_join (hfile : IsPlainName file) {r : Place × List String}
    (h : tree.start (Path.join folder file) = .ok r) : ∃ names, r.2 = names ++ [file] := by
  obtain ⟨front, hfront⟩ := Path.exists_names_join folder
  have hnames := hfront file hfile.slash_notMem
  unfold start at h
  rw [hnames] at h
  split at h
  next => cases h
  split at h
  next => cases h
  split at h
  next => cases h
  split at h
  next rest heq =>
    obtain rfl := Except.ok.inj h
    cases front with
    | nil => exact absurd (List.head_eq_of_cons_eq heq) hfile.ne_empty
    | cons name front => exact ⟨front, (List.tail_eq_of_cons_eq heq).symm⟩
  next =>
    obtain rfl := Except.ok.inj h
    exact ⟨front, rfl⟩

/-- A plain name leads to the place of this name in the directory. -/
theorem eq_concat_of_nextPlace (hfile : IsPlainName file)
    (h : tree.nextPlace directory file = .ok place) : place = directory ++ [file] := by
  unfold nextPlace at h
  rw [entry_of_nextPlace h, hfile.not_idle] at h
  simp only [Bool.false_eq_true, if_false, if_neg hfile.ne_parent] at h
  split at h
  next => cases h
  next => exact (Except.ok.inj h).symm

/-- The target of a folder and a plain file name is the file in the directory that the folder leads
to. -/
theorem leadsTo_of_target {last? : Option String} (hfile : IsPlainName file)
    (h : tree.target (Path.join folder file) = .ok (place, last?)) :
    ∃ directory, place = directory ++ [file] ∧
      tree.LeadsTo (Path.join folder file) directory file := by
  unfold target at h
  obtain ⟨⟨here, names⟩, hstart, h⟩ := bind_eq_ok_iff.1 h
  obtain ⟨front, rfl⟩ := exists_start_join hfile hstart
  have hlast : ((front ++ [file]).reverse.dropWhile (· = "")) = file :: front.reverse := by
    simp [hfile.ne_empty]
  dsimp only at h
  rw [hlast] at h
  obtain ⟨directory, hfollow, h⟩ := bind_eq_ok_iff.1 h
  obtain ⟨place', hnext, h⟩ := bind_eq_ok_iff.1 h
  obtain ⟨rfl, -⟩ := Prod.mk.inj (Except.ok.inj h)
  rw [List.reverse_reverse] at hfollow
  obtain rfl := eq_concat_of_nextPlace hfile hnext
  exact ⟨directory, rfl, ⟨here, front, hstart, hfollow⟩, hnext⟩

/-! ## Writing -/

/-- A text is written where its path leads to, and no directory gives way to it. -/
theorem exists_put_of_writeText {text : String} {after : DiskTree}
    (h : tree.writeText path text = .ok after) : ∃ place last?,
      tree.target path = .ok (place, last?) ∧ tree.entry? place ≠ some .directory ∧
        after = tree.put place (.file text.toUTF8) := by
  unfold writeText at h
  obtain ⟨⟨place, last?⟩, htarget, h⟩ := bind_eq_ok_iff.1 h
  dsimp only at h
  split at h
  next => cases h
  next hentry =>
    split at h
    next => cases h
    next => exact ⟨place, last?, htarget, hentry, (Except.ok.inj h).symm⟩

/-- What was written is found where it was written, unless a directory was in the way. -/
theorem entry_put_self {p : Place} {entry : DiskEntry} (h : tree.entry? p ≠ some .directory) :
    DiskTree.entry? (tree.put p entry) p = some entry := by
  have hroot : p ≠ [] := fun hroot => h (by rw [hroot]; rfl)
  unfold DiskTree.entry? DiskTree.put
  simp [OrderedMap.get?_insert, hroot]

/-- A file under a path holds the bytes of a text. -/
def HasFile (tree : DiskTree) (path text : String) : Prop :=
  ∃ place, tree.locate path = .ok (place, .file text.toUTF8)

/-- What is written into a file is found there, also when another file has been written after it. -/
theorem hasFile_of_writeText {first second text text' : String} {middle after : DiskTree}
    (hfirst : IsPlainName first) (hsecond : IsPlainName second) (hne : first ≠ second)
    (hwrite : tree.writeText (Path.join folder first) text = .ok middle)
    (hwrite' : middle.writeText (Path.join folder second) text' = .ok after) :
    after.HasFile (Path.join folder first) text := by
  obtain ⟨place, last?, htarget, hentry, rfl⟩ := exists_put_of_writeText hwrite
  obtain ⟨place', last?', htarget', hentry', rfl⟩ := exists_put_of_writeText hwrite'
  obtain ⟨directory, rfl, hleads⟩ := leadsTo_of_target hfirst htarget
  obtain ⟨directory', rfl, -⟩ := leadsTo_of_target hsecond htarget'
  have hplaces : directory ++ [first] ≠ directory' ++ [second] := fun heq =>
    hne (List.singleton_inj.1 (List.append_inj' heq rfl).2)
  refine ⟨directory ++ [first], ((hleads.put hentry).put hentry').locate_eq ?_⟩
  rw [entry_put_of_ne hplaces, entry_put_self hentry]

end DiskTree
end GrantPlan
