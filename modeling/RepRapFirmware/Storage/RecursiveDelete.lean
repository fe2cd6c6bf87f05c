import Mathlib
import RepRapFirmware.Storage.MassStorage

/-! Recursive deletion: which directories it removes, and what it leaves alone. -/

namespace RepRapFirmware.Storage.MassStorage

open Library.FileTree

/-- A name that a directory can hold. -/
structure ValidName (n : Name) : Prop where
  nonempty : n ≠ []
  noSlash : '/' ∉ n
  noDots : nameKey n ≠ ['.'] ∧ nameKey n ≠ ['.', '.']

structure ValidEntries (es : Entries Name (List UInt8)) : Prop where
  names : ∀ e ∈ es, ValidName e.1
  distinct : (es.map fun e => nameKey e.1).Nodup

/-- The drives with what they hold, every directory with valid entries. -/
structure Volume where
  root : Entries Name (List UInt8)
  valid : ∀ n ns es, lookup nameKey (n :: ns) root = some (.dir es) → ValidEntries es

/-- What the deletion of the directory `ns` is to come to: it is complete if no deletion fails, and
otherwise it is reported and has changed nothing outside the directory. -/
structure Deletes (d : Disk) (path : List Char) (root : Entries Name (List UInt8)) (r : Outcome) :
    Prop where
  complete : (∀ n, d.unlinkFails n = false) → r.result = true
  reported : (∃ n < r.state.unlinks, d.unlinkFails n = true) → r.result = false
  removed : r.result = true → r.state.root = remove nameKey (resolve path) root
  outside : r.result = false →
    remove nameKey (resolve path) r.state.root = remove nameKey (resolve path) root
  filePath : r.filePath = path

/-- No file of the directory or below it is open. -/
def NoneOpen (d : Disk) (path : List Char) : Prop := ∀ ns, d.isOpen (resolve path ++ ns) = false

/-! ### Paths -/

section Paths

variable {path : List Char} {n : Name} {ns : List Name}

lemma components_append (xs ys : List Char) :
    components (xs ++ '/' :: ys) = components xs ++ components ys := by
  rw [components, List.splitOn, List.splitOnP_append_cons xs ys (by decide), List.filter_append]
  rfl

lemma ValidName.components (h : ValidName n) : components n = [n] := by
  have hnone : ∀ c ∈ n, (c == '/') = false := by
    intro c hc
    rw [beq_eq_false_iff_ne]
    rintro rfl
    exact h.noSlash hc
  rw [MassStorage.components, List.splitOn, List.splitOnP_eq_singleton hnone]
  simp [h.nonempty]

lemma hasDrive_slash (path xs : List Char) : hasDrive (path ++ '/' :: xs) = hasDrive path := by
  match path with
  | [] => cases xs <;> rfl
  | [c] => simp [hasDrive]
  | _ :: _ :: _ => rfl

/-- A slash and what follows it do not change the drive of a path. -/
lemma splitDrive_slash (path xs : List Char) :
    splitDrive (path ++ '/' :: xs) = ((splitDrive path).1, (splitDrive path).2 ++ '/' :: xs) := by
  rw [splitDrive, splitDrive, hasDrive_slash]
  split
  · next hdrive =>
    match path with
    | [] => cases hdrive
    | [_] => cases hdrive
    | _ :: _ :: _ => rfl
  · rfl

lemma resolve_slash (path xs : List Char) :
    resolve (path ++ '/' :: xs) = resolve path ++ components xs := by
  rw [resolve, splitDrive_slash, components_append]
  rfl

lemma resolve_addSlash (path : List Char) : resolve (addSlash path) = resolve path := by
  rw [addSlash]
  split
  · rw [resolve_slash]
    exact List.append_nil _
  · rfl

/-- The path has a slash at its end and leads to `ns`. -/
structure LeadsTo (ns : List Name) (path : List Char) : Prop where
  resolve : resolve path = ns
  slash : ∃ before, path = before ++ ['/']

lemma addSlash_leadsTo (path : List Char) : LeadsTo (resolve path) (addSlash path) := by
  refine ⟨resolve_addSlash path, ?_⟩
  rw [addSlash]
  split
  · exact ⟨path, rfl⟩
  · next hslash =>
    obtain ⟨hne, hlast⟩ := not_or.mp hslash
    exact List.getLast?_eq_some_iff.mp (not_not.mp hlast)

lemma LeadsTo.append (h : LeadsTo ns path) (hn : ValidName n) :
    MassStorage.resolve (path ++ n) = ns ++ [n] := by
  obtain ⟨before, rfl⟩ := h.slash
  have hns : MassStorage.resolve before = ns := by
    rw [← h.resolve, resolve_slash]
    exact (List.append_nil _).symm
  rw [List.append_assoc, List.singleton_append, resolve_slash, hn.components, hns]

lemma take_addSlash (path : List Char) : (addSlash path).take path.length = path := by
  rw [addSlash]
  split
  · exact List.take_left
  · exact List.take_length

lemma LeadsTo.addSlash (h : LeadsTo ns path) (hn : ValidName n) :
    LeadsTo (ns ++ [n]) (addSlash (path ++ n)) :=
  h.append hn ▸ addSlash_leadsTo (path ++ n)

end Paths

/-! ### Single deletions -/

section Deletion

variable {d : Disk} {mode : ErrorMessageMode} {path : List Char} {s : State}

lemma unlink_spec (d : Disk) (path : List Char) (s : State) :
    (unlink d path s).2.unlinks = s.unlinks + 1 ∧
    ((unlink d path s).1 = .ok ∧ d.unlinkFails s.unlinks = false ∧
        (unlink d path s).2.root = remove nameKey (resolve path) s.root ∨
      (unlink d path s).1 ≠ .ok ∧ (unlink d path s).2.root = s.root) := by
  rw [unlink]
  split
  · exact ⟨rfl, .inr ⟨fun hok => (by cases hok), rfl⟩⟩
  · next hworks =>
    have hworks' := Bool.eq_false_of_not_eq_true hworks
    split
    · exact ⟨rfl, .inr ⟨fun hok => (by cases hok), rfl⟩⟩
    · exact ⟨rfl, .inr ⟨fun hok => (by cases hok), rfl⟩⟩
    · exact ⟨rfl, .inl ⟨rfl, hworks', rfl⟩⟩
    · exact ⟨rfl, .inl ⟨rfl, hworks', rfl⟩⟩

/-- Outside an open file, what a deletion reports is what the file system has done. -/
lemma internalDelete_eq (mode : ErrorMessageMode) (hclosed : isSameFileOpen d path s = false) :
    (internalDelete d mode path s).1 = decide ((unlink d path s).1 = .ok) ∧
    (internalDelete d mode path s).2.root = (unlink d path s).2.root ∧
    (internalDelete d mode path s).2.unlinks = (unlink d path s).2.unlinks := by
  rw [internalDelete, if_neg (by rw [hclosed]; exact Bool.false_ne_true)]
  cases hresult : unlink d path s with
  | mk result after =>
    simp only
    split
    · next hfailed =>
      rw [decide_eq_false hfailed]
      split
      · exact ⟨rfl, rfl, rfl⟩
      · exact ⟨rfl, rfl, rfl⟩
    · next hworked =>
      rw [decide_eq_true (not_not.mp hworked)]
      exact ⟨rfl, rfl, rfl⟩

lemma internalDelete_spec (mode : ErrorMessageMode) (hclosed : isSameFileOpen d path s = false) :
    (internalDelete d mode path s).2.unlinks = s.unlinks + 1 ∧
    ((internalDelete d mode path s).1 = true ∧ d.unlinkFails s.unlinks = false ∧
        (internalDelete d mode path s).2.root = remove nameKey (resolve path) s.root ∨
      (internalDelete d mode path s).1 = false ∧
        (internalDelete d mode path s).2.root = s.root) := by
  obtain ⟨hresult, hroot, hcount⟩ := internalDelete_eq mode hclosed
  obtain ⟨hunlinks, hcases⟩ := unlink_spec d path s
  rw [hresult, hroot, hcount, decide_eq_true_eq, decide_eq_false_iff_not]
  exact ⟨hunlinks, hcases⟩

lemma not_open_of_dir {es : Entries Name (List UInt8)}
    (h : lookup nameKey (resolve path) s.root = some (.dir es)) : isSameFileOpen d path s = false :=
    by
  rw [isSameFileOpen, h]

/-- A directory that is not empty is not deleted. -/
lemma internalDelete_nonempty {e : Name × Tree Name (List UInt8)} {es : Entries Name (List UInt8)}
    (h : lookup nameKey (resolve path) s.root = some (.dir (e :: es))) :
    (internalDelete d mode path s).1 = false := by
  rw [(internalDelete_eq mode (not_open_of_dir h)).1, decide_eq_false_iff_not, unlink]
  split
  · exact fun hok => (by cases hok)
  · rw [h]
    exact fun hok => (by cases hok)

lemma internalDelete_empty (h : lookup nameKey (resolve path) s.root = some (.dir []))
    (hworks : d.unlinkFails s.unlinks = false) : (internalDelete d mode path s).1 = true := by
  rw [(internalDelete_eq mode (not_open_of_dir h)).1, decide_eq_true_eq, unlink,
    if_neg (by rw [hworks]; exact Bool.false_ne_true), h]

lemma internalDelete_file {c : List UInt8} (hclosed : isSameFileOpen d path s = false)
    (h : lookup nameKey (resolve path) s.root = some (.file c))
    (hworks : d.unlinkFails s.unlinks = false) : (internalDelete d mode path s).1 = true := by
  rw [(internalDelete_eq mode hclosed).1, decide_eq_true_eq, unlink,
    if_neg (by rw [hworks]; exact Bool.false_ne_true), h]

end Deletion

section Loop

variable (d : Disk) (mode : ErrorMessageMode) {entry : DirEntry} (rest : List DirEntry)
  (filePath : List Char) (s : State)

lemma deleteEntries_file (hname : ValidName entry.fname) (hfile : entry.isDir = false) :
    (deleteEntries d mode filePath.length (entry :: rest) filePath s).1 =
      if (internalDelete d mode (filePath ++ entry.fname) s).1 then
        (deleteEntries d mode filePath.length rest filePath
          (internalDelete d mode (filePath ++ entry.fname) s).2).1
      else ⟨true, rest, filePath, (internalDelete d mode (filePath ++ entry.fname) s).2⟩ := by
  rw [deleteEntries, if_neg (not_or.mpr hname.noDots)]
  simp only [hfile, Bool.false_eq_true, if_false, List.take_left]
  cases internalDelete d mode (filePath ++ entry.fname) s with
  | mk ok after => cases ok <;> rfl

/-- The contents of a directory are read from the same handle. -/
lemma deleteEntries_dir (hname : ValidName entry.fname) (hdir : entry.isDir = true) :
    (deleteEntries d mode filePath.length (entry :: rest) filePath s).1 =
      match opendir (filePath ++ entry.fname) s with
      | none => ⟨true, rest, filePath, s⟩
      | some _ =>
        let path := addSlash (filePath ++ entry.fname)
        let inner := (deleteEntries d mode path.length rest path s).1
        if inner.ok then
          (deleteEntries d mode filePath.length inner.remaining
            ((inner.filePath.take (filePath ++ entry.fname).length).take filePath.length)
            inner.state).1
        else inner := by
  rw [deleteEntries, if_neg (not_or.mpr hname.noDots)]
  simp only [hdir, if_true, List.take_left]
  cases opendir (filePath ++ entry.fname) s with
  | none => rfl
  | some es =>
    simp only
    split <;> rfl

end Loop

/-! ### Directories without directories in them -/

def IsFile (t : Tree Name (List UInt8)) : Prop := ∃ c, t = .file c

/-- What is left of a directory of files when its contents have been deleted: nothing, or else some
deletion has failed. -/
structure Emptied (d : Disk) (ns : List Name) (root : Entries Name (List UInt8)) (s : State) :
    Prop where
  outside : remove nameKey ns s.root = remove nameKey ns root
  left : ∃ es, lookup nameKey ns s.root = some (.dir es) ∧
    (es = [] ∧ (∀ n < s.unlinks, d.unlinkFails n = false) ∨ es ≠ [] ∧ ∃ n, d.unlinkFails n = true)

lemma find_head {e : Name × Tree Name (List UInt8)} {es : Entries Name (List UInt8)} :
    find nameKey e.1 (e :: es) = some e.2 := by
  rw [find_cons, if_pos rfl]

/-- Every file is deleted in turn, until a deletion fails. -/
lemma deleteEntries_flat {d : Disk} {mode : ErrorMessageMode} {ns : List Name}
    {filePath : List Char} (hns : ns ≠ []) (hpath : LeadsTo ns filePath)
    (hclosed : ∀ ms, d.isOpen (ns ++ ms) = false) (root es : Entries Name (List UInt8)) (s : State)
    (hvalid : ValidEntries es) (hfiles : ∀ e ∈ es, IsFile e.2)
    (hlookup : lookup nameKey ns s.root = some (.dir es))
    (houtside : remove nameKey ns s.root = remove nameKey ns root)
    (hworked : ∀ n < s.unlinks, d.unlinkFails n = false) :
    let c := (deleteEntries d mode filePath.length (listEntries es) filePath s).1
    c.ok = true ∧ c.filePath = filePath ∧ Emptied d ns root c.state := by
  induction es generalizing s with
  | nil =>
    rw [listEntries, List.map_nil, deleteEntries]
    exact ⟨rfl, rfl, houtside, [], hlookup, .inl ⟨rfl, hworked⟩⟩
  | cons e es ih =>
    obtain ⟨c, hc⟩ := hfiles e List.mem_cons_self
    have hname := hvalid.names e List.mem_cons_self
    have hresolve : resolve (filePath ++ e.1) = ns ++ [e.1] := hpath.append hname
    have hfile : lookup nameKey (resolve (filePath ++ e.1)) s.root = some (.file c) := by
      rw [hresolve, lookup_append hlookup, lookup_singleton, find_head, hc]
    have hshut : isSameFileOpen d (filePath ++ e.1) s = false := by
      rw [isSameFileOpen, hfile]
      simp only
      rw [hresolve]
      exact hclosed [e.1]
    have hentry : listEntries (e :: es) = ⟨e.1, false⟩ :: listEntries es := by
      rw [listEntries, List.map_cons, hc]
      rfl
    rw [hentry, deleteEntries_file d mode _ _ _ hname rfl]
    have hrest : ValidEntries es :=
      ⟨fun x hx => hvalid.names x (List.mem_cons_of_mem _ hx),
        (List.nodup_cons.mp hvalid.distinct).2⟩
    obtain ⟨hcount, ⟨hok, hworks, hroot⟩ | ⟨hfailed, hroot⟩⟩ := internalDelete_spec mode hshut
    · rw [if_pos hok]
      apply ih
      · exact hrest
      · exact fun x hx => hfiles x (List.mem_cons_of_mem _ hx)
      · rw [hroot, hresolve, lookup_remove_append (List.cons_ne_nil _ _) hlookup, remove, erase,
          List.eraseP_cons_of_pos (by simp)]
      · rw [hroot, hresolve, remove_remove_append hns (List.cons_ne_nil _ _), houtside]
      · intro n hn
        rw [hcount] at hn
        rcases Nat.lt_succ_iff_lt_or_eq.mp hn with hlt | rfl
        · exact hworked n hlt
        · exact hworks
    · rw [if_neg (by rw [hfailed]; exact Bool.false_ne_true)]
      refine ⟨rfl, rfl, by rw [hroot, houtside], e :: es, by rw [hroot, hlookup],
        .inr ⟨List.cons_ne_nil _ _, ?_⟩⟩
      by_contra hnone
      have hworks : d.unlinkFails s.unlinks = false := by
        by_contra hfails
        exact hnone ⟨_, Bool.eq_true_of_not_eq_false hfails⟩
      rw [internalDelete_file hshut hfile hworks] at hfailed
      cases hfailed

/-! ### Directories with a directory in them -/

/-- The directory `ns` still holds a directory with the name `n`. -/
def Holds (ns : List Name) (n : Name) (s : State) : Prop :=
  ∃ es ds, lookup nameKey ns s.root = some (.dir es) ∧ (n, .dir ds) ∈ es

section Holding

variable {d : Disk} {mode : ErrorMessageMode} {ns ms : List Name} {n m : Name} {path : List Char}
  {s : State}

/-- A deletion below another entry, or of one with another name, keeps the directory. -/
lemma Holds.afterDelete (h : Holds ns n s) (hpath : resolve path = ns ++ ms ++ [m])
    (hother : ms ≠ [] ∨ nameKey n ≠ nameKey m) : Holds ns n (internalDelete d mode path s).2 := by
  have hroot : (internalDelete d mode path s).2.root = s.root ∨
      (internalDelete d mode path s).2.root = remove nameKey (resolve path) s.root := by
    cases hopen : isSameFileOpen d path s with
    | true =>
      left
      rw [internalDelete, if_pos hopen]
      rfl
    | false =>
      obtain ⟨-, ⟨-, -, hroot⟩ | ⟨-, hroot⟩⟩ := internalDelete_spec mode hopen
      · exact .inr hroot
      · exact .inl hroot
  obtain ⟨es, ds, hlookup, hmem⟩ := h
  rcases hroot with hroot | hroot
  · exact ⟨es, ds, hroot ▸ hlookup, hmem⟩
  · rw [hpath, List.append_assoc] at hroot
    have hafter := lookup_remove_append
      (List.append_ne_nil_of_right_ne_nil ms (List.cons_ne_nil m [])) hlookup
    rw [← hroot] at hafter
    cases ms with
    | nil =>
      refine ⟨_, ds, hafter, (List.mem_eraseP_of_neg ?_).mpr hmem⟩
      rw [decide_eq_true_eq]
      exact hother.resolve_left fun h => h rfl
    | cons k ks =>
      have hstep : remove nameKey (k :: ks ++ [m]) es =
          modify nameKey k (remove nameKey (ks ++ [m])) es := by
        cases ks <;> rfl
      obtain ⟨ds', hds'⟩ : ∃ ds', (n,
        .dir ds') ∈ modify nameKey k (remove nameKey (ks ++ [m])) es :=
        dir_mem_modify (remove nameKey (ks ++ [m])) hmem
      exact ⟨_, ds', hafter, hstep ▸ hds'⟩

/-- Reading on from the handle never removes the directory: below an entry because of the depth, and
beside it because only files are deleted there. -/
lemma Holds.deleteEntries (remaining : List DirEntry) (ms : List Name) (path : List Char) (s
    : State)
    (h : Holds ns n s) (hpath : LeadsTo (ns ++ ms) path)
    (hnames : ∀ e ∈ remaining, ValidName e.fname)
    (hother : ms ≠ [] ∨ ∀ e ∈ remaining, e.isDir = false → nameKey n ≠ nameKey e.fname) :
    let c := (MassStorage.deleteEntries d mode path.length remaining path s).1
    c.ok = true ∧ c.filePath = path ∧ c.remaining ⊆ remaining ∧ Holds ns n c.state := by
  obtain ⟨k, hk⟩ : ∃ k, remaining.length ≤ k := ⟨_, le_rfl⟩
  induction k generalizing remaining ms path s with
  | zero =>
    rw [List.eq_nil_of_length_eq_zero (Nat.le_zero.mp hk), MassStorage.deleteEntries]
    exact ⟨rfl, rfl, List.Subset.refl _, h⟩
  | succ k ih =>
    cases remaining with
    | nil =>
      rw [MassStorage.deleteEntries]
      exact ⟨rfl, rfl, List.Subset.refl _, h⟩
    | cons entry rest =>
      have hk' : rest.length ≤ k := Nat.le_of_succ_le_succ hk
      have hname := hnames entry List.mem_cons_self
      have hrest : ∀ e ∈ rest, ValidName e.fname := fun e he => hnames e (List.mem_cons_of_mem _ he)
      have hotherRest : ms ≠ [] ∨ ∀ e ∈ rest, e.isDir = false → nameKey n ≠ nameKey e.fname :=
        hother.imp_right fun hall e he => hall e (List.mem_cons_of_mem _ he)
      cases hdir : entry.isDir with
      | false =>
        rw [deleteEntries_file d mode rest path s hname hdir]
        have hafter : Holds ns n (internalDelete d mode (path ++ entry.fname) s).2 :=
          h.afterDelete (hpath.append hname)
            (hother.imp_right fun hall => hall entry List.mem_cons_self hdir)
        split
        · obtain ⟨hok, hfile, hsub, hholds⟩ := ih rest ms path _ hafter hpath hrest
            hotherRest hk'
          exact ⟨hok, hfile, List.Subset.trans hsub (List.subset_cons_self _ _), hholds⟩
        · exact ⟨rfl, rfl, List.subset_cons_self _ _, hafter⟩
      | true =>
        rw [deleteEntries_dir d mode rest path s hname hdir]
        split
        · exact ⟨rfl, rfl, List.subset_cons_self _ _, h⟩
        · have hinner := ih rest (ms ++ [entry.fname])
            (addSlash (path ++ entry.fname)) s h
            (by rw [← List.append_assoc]; exact hpath.addSlash hname) hrest
            (.inl (List.append_ne_nil_of_right_ne_nil ms (List.cons_ne_nil _ _))) hk'
          have hshorter := (MassStorage.deleteEntries d mode
            (addSlash (path ++ entry.fname)).length rest (addSlash (path ++ entry.fname)) s).2
          obtain ⟨hok, hfile, hsub, hholds⟩ := hinner
          simp only
          rw [if_pos hok, hfile, take_addSlash, List.take_left]
          obtain ⟨hok', hfile', hsub', hholds'⟩ := ih _ ms path _ hholds hpath
            (fun e he => hrest e (hsub he)) (hotherRest.imp_right fun hall e he => hall e (hsub he))
            (hshorter.trans hk')
          exact ⟨hok', hfile', List.Subset.trans hsub'
            (List.Subset.trans hsub (List.subset_cons_self _ _)), hholds'⟩

end Holding

/-! ### The whole deletion -/

lemma resolve_ne_nil (path : List Char) : resolve path ≠ [] := List.cons_ne_nil _ _

section Delete

variable {v : Volume} {path : List Char} {es : Entries Name (List UInt8)} {d : Disk}

lemma delete_eq (mode : ErrorMessageMode) {s : State} (hroot : isRoot path = false)
    (hdir : lookup nameKey (resolve path) s.root = some (.dir es)) {c : Contents}
    (hc : (deleteEntries d mode (addSlash path).length (listEntries es) (addSlash path) s).1 = c)
    (hok : c.ok = true) (hpath : c.filePath = addSlash path) :
    delete d path mode true s =
      ⟨(internalDelete d mode path c.state).1, path, (internalDelete d mode path c.state).2⟩ := by
  have hopendir : opendir path s = some (listEntries es) := by
    rw [opendir, hdir]
  have hcontents : deleteContents d mode (listEntries es) path s = { c with filePath := path } := by
    rw [deleteContents, hc]
    simp only [hok, if_true, hpath, take_addSlash]
  rw [delete, if_pos rfl, if_neg (by rw [hroot]; exact Bool.false_ne_true), hopendir]
  simp only [hcontents, hok, if_true]

/-- The directory itself is deleted last. -/
lemma Emptied.deletes {root : Entries Name (List UInt8)} {s : State} (mode : ErrorMessageMode)
    (h : Emptied d (resolve path) root s) : Deletes d path root
      ⟨(internalDelete d mode path s).1, path, (internalDelete d mode path s).2⟩ := by
  obtain ⟨left, hleft, hcases⟩ := h.left
  obtain ⟨hcount, hdeleted⟩ := internalDelete_spec (d := d) mode (not_open_of_dir hleft)
  rcases hcases with ⟨rfl, hworked⟩ | ⟨hne, hfails⟩
  · rcases hdeleted with ⟨hresult, hworks, hroot⟩ | ⟨hresult, hroot⟩
    · refine ⟨fun _ => hresult, ?_, ?_, ?_, rfl⟩
      · rintro ⟨n, hn, hfails⟩
        change n < (internalDelete d mode path s).2.unlinks at hn
        rw [hcount] at hn
        rcases Nat.lt_succ_iff_lt_or_eq.mp hn with hlt | rfl
        · exact absurd (hworked n hlt) (by rw [hfails]; decide)
        · exact absurd hworks (by rw [hfails]; decide)
      · exact fun _ => hroot.trans h.outside
      · exact fun hfalse => absurd (hresult.symm.trans hfalse) (by decide)
    · refine ⟨fun hnever => ?_, fun _ => hresult, ?_, ?_, rfl⟩
      · exact absurd (internalDelete_empty hleft (hnever _)) (by rw [hresult]; decide)
      · exact fun htrue => absurd (htrue.symm.trans hresult) (by decide)
      · exact fun _ => (congrArg _ hroot).trans h.outside
  · obtain ⟨e, left, rfl⟩ := List.exists_cons_of_ne_nil hne
    have hresult : (internalDelete d mode path s).1 = false := internalDelete_nonempty hleft
    have hroot : (internalDelete d mode path s).2.root = s.root := by
      rcases hdeleted with ⟨htrue, -⟩ | ⟨-, hroot⟩
      · exact absurd (htrue.symm.trans hresult) (by decide)
      · exact hroot
    obtain ⟨n, hn⟩ := hfails
    refine ⟨fun hnever => absurd (hnever n) (by rw [hn]; decide), fun _ => hresult, ?_, ?_, rfl⟩
    · exact fun htrue => absurd (htrue.symm.trans hresult) (by decide)
    · exact fun _ => (congrArg _ hroot).trans h.outside

/-- A directory of files is deleted with all that it contains. -/
lemma deletes_of_files (mode : ErrorMessageMode) (hroot : isRoot path = false)
    (hdir : lookup nameKey (resolve path) v.root = some (.dir es)) (hfiles : ∀ e ∈ es, IsFile e.2)
    (hclosed : NoneOpen d path) : Deletes d path v.root (delete d path mode true ⟨v.root, 0, []⟩) :=
    by
  have hvalid : ValidEntries es := v.valid _ _ _ hdir
  obtain ⟨hok, hpath, houtside, left, hleft, hcases⟩ := deleteEntries_flat (d := d)
    (resolve_ne_nil path) (addSlash_leadsTo path) hclosed v.root es ⟨v.root, 0, []⟩ hvalid hfiles
    hdir rfl (fun n hn => absurd hn (Nat.not_lt_zero n))
  rw [delete_eq mode hroot hdir rfl hok hpath]
  exact Emptied.deletes mode ⟨houtside, left, hleft, hcases⟩

/-- With a directory in it, a directory is never deleted. -/
lemma not_deletes_of_dir (mode : ErrorMessageMode) (hroot : isRoot path = false)
    (hdir : lookup nameKey (resolve path) v.root = some (.dir es)) {n : Name}
    {ds : Entries Name (List UInt8)} (hn : (n, .dir ds) ∈ es) :
    (delete d path mode true ⟨v.root, 0, []⟩).result = false := by
  have hvalid : ValidEntries es := v.valid _ _ _ hdir
  have hholds : Holds (resolve path) n ⟨v.root, 0, []⟩ := ⟨es, ds, hdir, hn⟩
  have hpath : LeadsTo (resolve path ++ []) (addSlash path) := by
    rw [List.append_nil]
    exact addSlash_leadsTo path
  have hnames : ∀ x ∈ listEntries es, ValidName x.fname := by
    intro x hx
    obtain ⟨e, he, rfl⟩ := List.mem_map.mp hx
    exact hvalid.names e he
  have hother : ∀ x ∈ listEntries es, x.isDir = false → nameKey n ≠ nameKey x.fname := by
    intro x hx hfile hsame
    obtain ⟨e, he, rfl⟩ := List.mem_map.mp hx
    have heq : (n, Tree.dir ds) = e := List.inj_on_of_nodup_map hvalid.distinct hn he hsame
    subst heq
    cases hfile
  obtain ⟨hok, hkept, -, es', ds', hafter, hstill⟩ := hholds.deleteEntries (d := d)
    (listEntries es) [] (addSlash path) _ hpath hnames (.inr hother)
  rw [delete_eq mode hroot hdir rfl hok hkept]
  cases es' with
  | nil => cases hstill
  | cons e es' => exact internalDelete_nonempty hafter

end Delete

/-- Recursive deletion does what it is for exactly on the directories that contain only files. -/
theorem delete_recursive (v : Volume) (path : List Char) (mode : ErrorMessageMode)
    (es : Entries Name (List UInt8)) (hroot : isRoot path = false)
    (hdir : lookup nameKey (resolve path) v.root = some (.dir es)) :
    (∀ d, NoneOpen d path → Deletes d path v.root (delete d path mode true ⟨v.root, 0, []⟩)) ↔
      ∀ e ∈ es, IsFile e.2 := by
  constructor
  · rintro h ⟨n, t⟩ hn
    cases t with
    | file c => exact ⟨c, rfl⟩
    | dir ds =>
      have hdeletes := h ⟨fun _ => false, fun _ => false⟩ (fun _ => rfl)
      have hresult := hdeletes.complete fun _ => rfl
      rw [not_deletes_of_dir mode hroot hdir hn] at hresult
      cases hresult
  · exact fun hfiles d hclosed => deletes_of_files mode hroot hdir hfiles hclosed

lemma lookup_only {n m : Name} {ns : List Name} {ds es : Entries Name (List UInt8)}
    (h : lookup nameKey (n :: ns) [(m, .dir ds)] = some (.dir es)) :
    lookup nameKey ns ds = some (.dir es) := by
  obtain ⟨ds', hfind, hrest⟩ := find_of_lookup_dir h
  rw [find_cons] at hfind
  split at hfind
  · cases hfind
    exact hrest
  · cases hfind

/-- One drive with a directory, that contains a directory, that contains a file. -/
def nestedVolume : Volume where
  root := [(['0', ':'], .dir [(['a'], .dir [(['b'], .dir [(['f'], .file [])])])])]
  valid := by
    have hname : ∀ c : Char, c ≠ '/' → nameKey [c] ≠ ['.'] → ValidName [c] := by
      intro c hslash hdot
      refine ⟨List.cons_ne_nil _ _, ?_, hdot, by simp [nameKey]⟩
      rw [List.mem_singleton]
      exact hslash.symm
    have hone : ∀ (c : Char) (t : Tree Name (List UInt8)), c ≠ '/' → nameKey [c] ≠ ['.'] →
        ValidEntries [([c], t)] := by
      intro c t hslash hdot
      refine ⟨fun e he => ?_, List.nodup_singleton _⟩
      rw [List.mem_singleton.mp he]
      exact hname c hslash hdot
    intro n ns es h
    have ha := lookup_only h
    match ns with
    | [] => cases ha; exact hone 'a' _ (by decide) (by decide)
    | [_] => cases lookup_only ha; exact hone 'b' _ (by decide) (by decide)
    | [_, _] => cases lookup_only (lookup_only ha); exact hone 'f' _ (by decide) (by decide)
    | _ :: _ :: _ :: ks =>
      obtain ⟨ds, hfind, -⟩ := find_of_lookup_dir (lookup_only (lookup_only ha))
      rw [find_cons] at hfind
      split at hfind <;> cases hfind

theorem delete_recursive_flat :
    Deletes ⟨fun _ => false, fun _ => false⟩ "0:/a/b".toList nestedVolume.root
      (delete ⟨fun _ => false, fun _ => false⟩ "0:/a/b".toList .messageAlways true
        ⟨nestedVolume.root, 0, []⟩) :=
  (delete_recursive nestedVolume "0:/a/b".toList .messageAlways [(['f'], .file [])]
    (by decide) (by rfl)).mpr (fun e he => ⟨[], by rw [List.mem_singleton.mp he]⟩) _ fun _ => rfl

theorem delete_recursive_nested : ¬ ∀ (v : Volume) (path : List Char) (mode : ErrorMessageMode)
    (es : Entries Name (List UInt8)), isRoot path = false →
    lookup nameKey (resolve path) v.root = some (.dir es) →
    ∀ d, NoneOpen d path → Deletes d path v.root (delete d path mode true ⟨v.root, 0, []⟩) := by
  intro h
  have hdir : lookup nameKey (resolve "0:/a".toList) nestedVolume.root =
      some (.dir [(['b'], .dir [(['f'], .file [])])]) := by rfl
  have hdeletes := h nestedVolume "0:/a".toList .messageAlways _ (by decide) hdir
    ⟨fun _ => false, fun _ => false⟩ (fun _ => rfl)
  have hresult := hdeletes.complete fun _ => rfl
  rw [not_deletes_of_dir .messageAlways (by decide) hdir List.mem_cons_self] at hresult
  cases hresult

end RepRapFirmware.Storage.MassStorage
