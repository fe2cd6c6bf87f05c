import Mathlib
import RepRapFirmware.Storage.RecursiveDelete

/-! Making folders and renaming files. Every call of the file system may fail. -/

namespace RepRapFirmware.Storage.MassStorage

open Library.FileTree

/-- The calls that fail while the folders of a path are made, by where the path of the folder
ends. -/
structure PathFaults where
  opendir : ℕ → Bool
  mkdir : ℕ → Bool

structure RenameFaults where
  oldStat : Bool
  oldOpendir : Bool
  folders : PathFaults
  newStat : Bool
  newOpendir : Bool
  rename : Bool

def isDirAt (ns : List Name) (s : State) : Bool :=
  match lookup nameKey ns s.root with
  | some (.dir _) => true
  | _ => false

/-- A new entry in its folder, in place of one of the same name. -/
def place (ns : List Name) (t : Tree Name (List UInt8)) (s : State) : State :=
  { s with root := update nameKey (insert nameKey (ns.getLastD []) t) ns.dropLast s.root }

def fileExists (fails : Bool) (filePath : List Char) (s : State) : Bool :=
  !fails && !isRoot filePath && (lookup nameKey (resolve filePath) s.root).isSome

def directoryExists (fails : Bool) (path : List Char) (s : State) : Bool :=
  !fails && (opendir path s).isSome

/-- The file system refuses names that hold one of these characters. -/
def validPath (path : List Char) : Bool :=
  (splitDrive path).2.all fun c => c ∉ ['*', ':', '<', '>', '|', Char.ofNat 0x22, '?',
  Char.ofNat 0x7F]

/-- `f_mkdir` -/
def mkdir (fails : Bool) (path : List Char) (s : State) : Bool × State :=
  if !fails && validPath path && !isRoot path && (lookup nameKey (resolve path) s.root).isNone &&
      isDirAt (resolve path).dropLast s then
    (true, place (resolve path) (.dir []) s)
  else (false, s)

/-- The loop of `EnsurePath` over the positions of the path. -/
def ensureFolders (f : PathFaults) (messageIfFailed : Bool) (filePath : List Char) :
    List ℕ → State → Bool × State
  | [], s => (true, s)
  | i :: is, s =>
    if filePath[i]? = some '/' then
      let folder := filePath.take i
      if directoryExists (f.opendir i) folder s then
        ensureFolders f messageIfFailed filePath is s
      else
        match mkdir (f.mkdir i) folder s with
        | (false, s) =>
          (false,
            if messageIfFailed then
              s.message ("Failed to create folder " ++ String.ofList folder ++ " in path " ++
                String.ofList filePath ++ "\n")
            else s)
        | (true, s) => ensureFolders f messageIfFailed filePath is s
    else ensureFolders f messageIfFailed filePath is s

def pathStart (filePath : List Char) : ℕ :=
  let i := if hasDrive filePath then 2 else 0
  if filePath[i]? = some '/' then i + 1 else i

/-- The length of a path without the slashes at its end. -/
def pathLimit (filePath : List Char) : ℕ := (filePath.reverse.dropWhile (· = '/')).length

def ensurePath (f : PathFaults) (filePath : List Char) (messageIfFailed : Bool) (s : State) :
    Bool × State :=
  ensureFolders f messageIfFailed filePath
    (List.range' (pathStart filePath) (pathLimit filePath - pathStart filePath)) s

/-- `f_rename`. The drive of the new name is taken from the old one. -/
def relink (fails : Bool) (oldFilename newFilename : List Char) (s : State) : Bool × State :=
  let target := (splitDrive oldFilename).1 :: components (splitDrive newFilename).2
  match lookup nameKey (resolve oldFilename) s.root with
  | none => (false, s)
  | some t =>
    if !fails && validPath newFilename && !isRoot oldFilename && !isRoot newFilename &&
        ((lookup nameKey target s.root).isNone ||
          target.map nameKey = (resolve oldFilename).map nameKey) &&
        isDirAt target.dropLast s then
      (true, place target t { s with root := remove nameKey (resolve oldFilename) s.root })
    else (false, s)

/-- What has the new name is deleted, where `Rename` sees it. -/
def clear (d : Disk) (f : RenameFaults) (newFilename : List Char) (s : State) : Bool × State :=
  if fileExists f.newStat newFilename s || directoryExists f.newOpendir newFilename s then
    internalDelete d .messageAlways newFilename s
  else (true, s)

def rename (d : Disk) (f : RenameFaults) (oldFilename newFilename : List Char)
    (deleteExisting messageIfFailed : Bool) (s : State) : Bool × State :=
  let complain (text : String) (s : State) := if messageIfFailed then s.message text else s
  if !fileExists f.oldStat oldFilename s && !directoryExists f.oldOpendir oldFilename s then
    (false, complain ("Failed to rename file " ++ String.ofList oldFilename ++
      ": file not found\n") s)
  else
    let newFilename := (splitDrive newFilename).2
    match ensurePath f.folders newFilename messageIfFailed s with
    | (false, s) => (false, s)
    | (true, s) =>
      match if deleteExisting then clear d f newFilename s else (true, s) with
      | (false, s) => (false, s)
      | (true, s) =>
        match relink f.rename oldFilename newFilename s with
        | (false, s) =>
          (false, complain ("Failed to rename file or directory " ++ String.ofList oldFilename ++
            " to " ++ String.ofList newFilename ++ "\n") s)
        | (true, s) => (true, s)

/-! ### Paths -/

lemma flatten_components (xs : List Char) : (components xs).flatten = xs.filter (· ≠ '/') := by
  rw [components]
  induction xs with
  | nil => rfl
  | cons c cs ih =>
    rw [List.splitOn, List.splitOnP_cons_eq_if_modifyHead]
    by_cases hc : c = '/'
    · subst hc
      simpa [List.splitOn] using ih
    · rw [if_neg (by simpa using hc), List.filter_cons_of_pos (by simpa using hc), ← ih,
        List.splitOn]
      cases h : cs.splitOnP (· == '/') with
      | nil => exact absurd h (List.splitOnP_ne_nil _ _)
      | cons x rest =>
        cases x with
        | nil => simp [List.modifyHead]
        | cons y ys => simp [List.modifyHead]

lemma concat_leaf {ns : List Name} (h : ns ≠ []) : ns.dropLast ++ [ns.getLastD []] = ns := by
  rw [List.getLastD_eq_getLast?, List.getLast?_eq_getLast_of_ne_nil h, Option.getD_some,
    List.dropLast_append_getLast h]

/-- A slash before the last name of a path ends the name of a folder above. -/
lemma resolve_folder {path : List Char} {i : ℕ} (hi : i < pathLimit path)
    (hslash : path[i]? = some '/') :
    ∃ ms, ms ≠ [] ∧ resolve path = resolve (path.take i) ++ ms := by
  have hdrop : path.drop i = '/' :: path.drop (i + 1) := by
    obtain ⟨hlt, hget⟩ := List.getElem?_eq_some_iff.mp hslash
    rw [List.drop_eq_getElem_cons hlt, hget]
  have hsplit : path = path.take i ++ '/' :: path.drop (i + 1) := by
    rw [← hdrop, List.take_append_drop]
  refine ⟨components (path.drop (i + 1)), fun hnil => ?_, ?_⟩
  · have hrest : ∀ c ∈ path.drop (i + 1), c = '/' := by
      intro c hc
      have := flatten_components (path.drop (i + 1))
      rw [hnil, List.flatten_nil, eq_comm, List.filter_eq_nil_iff] at this
      simpa using this c hc
    have hall : ∀ c ∈ (path.drop i).reverse, decide (c = '/') = true := by
      intro c hc
      rw [List.mem_reverse, hdrop, List.mem_cons] at hc
      rcases hc with rfl | hc
      · rfl
      · exact decide_eq_true (hrest c hc)
    have hle : pathLimit path ≤ i := by
      rw [pathLimit, ← List.take_append_drop i path, List.reverse_append,
        List.dropWhile_append_of_pos hall]
      calc _ ≤ (path.take i).reverse.length := (List.dropWhile_sublist _).length_le
        _ ≤ i := by simp
    omega
  · conv_lhs => rw [hsplit]
    exact resolve_slash _ _

/-! ### What the calls leave alone -/

/-- What making the folders of a path leaves as it was. -/
structure Ensured (path : List Char) (s s' : State) : Prop where
  unlinks : s'.unlinks = s.unlinks
  kept : ∀ ns, (lookup nameKey ns s.root).isSome →
    shapeAt nameKey ns s'.root = shapeAt nameKey ns s.root
  absent : lookup nameKey (resolve path) s.root = none →
    lookup nameKey (resolve path) s'.root = none
  present : (lookup nameKey (resolve path) s.root).isSome → s'.root = s.root
  otherDrive : ∀ n ns, nameKey n ≠ nameKey (splitDrive path).1 →
    shapeAt nameKey (n :: ns) s'.root = shapeAt nameKey (n :: ns) s.root
  tidy : ∀ ns, Tidy nameKey ns s.root → Tidy nameKey ns s'.root
  files : ∀ ns c, shapeAt nameKey ns s'.root = some (some c) →
    shapeAt nameKey ns s.root = some (some c)

variable {path folder : List Char} {s s' s'' : State} {d : Disk} {ns ms : List Name}

lemma Ensured.of_root (h : s'.root = s.root) (hn : s'.unlinks = s.unlinks) : Ensured path s s' where
  unlinks := hn
  kept ns _ := by rw [h]
  absent hp := by rw [h, hp]
  present _ := h
  otherDrive n ns _ := by rw [h]
  tidy ns ht := by rw [h]; exact ht
  files ns c hc := by rwa [h] at hc

lemma Ensured.trans (h : Ensured path s s') (h' : Ensured path s' s'') : Ensured path s s'' where
  unlinks := h'.unlinks.trans h.unlinks
  kept ns hns := by
    rw [← h.kept ns hns]
    apply h'.kept
    rw [← isSome_shapeAt, h.kept ns hns, isSome_shapeAt]
    exact hns
  absent hp := h'.absent (h.absent hp)
  present hp := by
    rw [← h.present hp]
    apply h'.present
    rw [h.present hp]
    exact hp
  otherDrive n ns hn := (h'.otherDrive n ns hn).trans (h.otherDrive n ns hn)
  tidy ns ht := h'.tidy ns (h.tidy ns ht)
  files ns c hc := h.files ns c (h'.files ns c hc)

lemma isDirAt_iff : isDirAt ns s = true ↔ shapeAt nameKey ns s.root = some none := by
  rw [isDirAt, shapeAt]
  split
  · next h => simp [h, shape]
  · next h =>
    constructor
    · exact fun hfalse => by cases hfalse
    · intro hshape
      obtain ⟨ds, hds⟩ := shapeAt_dir.mp hshape
      exact absurd hds (h ds)

/-- A new entry is the only change that can be seen. -/
lemma shapeAt_place (t : Tree Name (List UInt8)) (hms : ms ≠ [])
    (h : ¬ ms.map nameKey <+: ns.map nameKey) :
    shapeAt nameKey ns (place ms t s).root = shapeAt nameKey ns s.root := by
  apply shapeAt_update (n := ms.getLastD [])
  · intro m ds hm
    rw [find_insert, if_neg hm]
  · rw [concat_leaf hms]
    exact h

lemma lookup_place (t : Tree Name (List UInt8)) (hms : ms ≠ []) (hdir : isDirAt ms.dropLast s =
    true) :
    lookup nameKey ms (place ms t s).root = some t := by
  obtain ⟨ds, hds⟩ := shapeAt_dir.mp (isDirAt_iff.mp hdir)
  have hplace : lookup nameKey ms.dropLast (place ms t s).root = _ :=
    lookup_update (insert nameKey (ms.getLastD []) t) hds
  have hleaf : lookup nameKey (ms.dropLast ++ [ms.getLastD []]) (place ms t s).root = some t := by
    rw [lookup_append hplace, lookup_singleton, find_insert, if_pos rfl]
  rwa [concat_leaf hms] at hleaf

def fileAt (path : List Char) (s : State) : Option (List UInt8) :=
  (shapeAt nameKey (resolve path) s.root).join

lemma Ensured.fileAt {q : List Char} (h : Ensured path s s') :
    MassStorage.fileAt q s' = MassStorage.fileAt q s := by
  rw [MassStorage.fileAt, MassStorage.fileAt]
  cases hlook : shapeAt nameKey (resolve q) s.root with
  | some x => rw [h.kept _ (by rw [← isSome_shapeAt, hlook]; rfl), hlook]
  | none =>
    cases hafter : shapeAt nameKey (resolve q) s'.root with
    | none => rfl
    | some x =>
      cases x with
      | none => rfl
      | some c =>
        rw [h.files _ c hafter] at hlook
        cases hlook

lemma mkdir_ensured {fails : Bool} (hms : ms ≠ []) (hpath : resolve path = resolve folder ++ ms) :
    Ensured path s (mkdir fails folder s).2 := by
  rw [mkdir]
  split
  · next h =>
    simp only [Bool.and_eq_true, Option.isNone_iff_eq_none] at h
    obtain ⟨⟨-, hnone⟩, hdir⟩ := h
    have hnew : ∀ ns, (lookup nameKey ns s.root).isSome →
        ¬ (resolve folder).map nameKey <+: ns.map nameKey := by
      intro ns hns hpre
      have := lookup_isSome_above hpre hns
      rw [hnone] at this
      cases this
    have hmade := lookup_place (.dir []) (resolve_ne_nil folder) hdir
    refine ⟨rfl, fun ns hns => ?_, fun _ => ?_, fun hp => ?_, fun n ns hn => ?_, fun ns ht => ?_,
      fun ns c hc => ?_⟩
    · exact shapeAt_place _ (resolve_ne_nil _) (hnew ns hns)
    · rw [hpath, lookup_append hmade]
      obtain ⟨m, rest, rfl⟩ := List.exists_cons_of_ne_nil hms
      rfl
    · refine absurd ?_ (hnew _ hp)
      rw [hpath, List.map_append]
      exact List.prefix_append _ _
    · apply shapeAt_place _ (resolve_ne_nil _)
      intro hpre
      apply hn
      have hhead : (splitDrive folder).1 = (splitDrive path).1 :=
        (List.cons.inj (hpath.symm.trans rfl)).1
      rw [resolve, List.map_cons, List.map_cons, List.cons_prefix_cons] at hpre
      rw [← hhead]
      exact hpre.1.symm
    · apply Tidy.update ht
      intro ds hds
      cases hds
      rfl
    · by_cases hpre : (resolve folder).map nameKey <+: ns.map nameKey
      · have htaken : ((ns.take (resolve folder).length).map nameKey) =
            (resolve folder).map nameKey := by
          rw [List.map_take, List.prefix_iff_eq_take.mp hpre, List.length_map]
        rw [shapeAt_file, ← List.take_append_drop (resolve folder).length ns,
          lookup_append ((lookup_congr htaken _).trans hmade)] at hc
        cases hrest : ns.drop (resolve folder).length with
        | nil => rw [hrest] at hc; cases hc
        | cons m rest => rw [hrest] at hc; cases hc
      · rw [shapeAt_place _ (resolve_ne_nil _) hpre] at hc
        exact hc
  · exact Ensured.of_root rfl rfl

lemma ensureFolders_ensured (f : PathFaults) (m : Bool) {is : List ℕ}
    (his : ∀ i ∈ is, i < pathLimit path) (s : State) :
    Ensured path s (ensureFolders f m path is s).2 := by
  induction is generalizing s with
  | nil => exact Ensured.of_root rfl rfl
  | cons i is ih =>
    have hrest : ∀ i ∈ is, i < pathLimit path := fun j hj => his j (List.mem_cons_of_mem _ hj)
    rw [ensureFolders]
    split
    · next hslash =>
      obtain ⟨ms, hms, hpath⟩ := resolve_folder (his i List.mem_cons_self) hslash
      dsimp only
      split
      · exact ih hrest s
      · have hmkdir : Ensured path s (mkdir (f.mkdir i) (path.take i) s).2 :=
          mkdir_ensured hms hpath
        split
        · next s' heq =>
          rw [heq] at hmkdir
          split
          · exact hmkdir.trans (Ensured.of_root rfl rfl)
          · exact hmkdir
        · next s' heq =>
          rw [heq] at hmkdir
          exact hmkdir.trans (ih hrest s')
    · exact ih hrest s

lemma ensurePath_ensured (f : PathFaults) (path : List Char) (m : Bool) (s : State) :
    Ensured path s (ensurePath f path m s).2 := by
  apply ensureFolders_ensured
  intro i hi
  have := List.mem_range'_1.mp hi
  omega

/-- What one deletion can delete: a file that is not open, or an empty directory. -/
def Deletable (d : Disk) (path : List Char) (s : State) : Prop :=
  d.unlinkFails s.unlinks = false ∧
    ((∃ c, lookup nameKey (resolve path) s.root = some (.file c)) ∧ d.isOpen (resolve path) =
    false ∨
      lookup nameKey (resolve path) s.root = some (.dir []))

lemma internalDelete_iff (d : Disk) (mode : ErrorMessageMode) (path : List Char) (s : State) :
    (internalDelete d mode path s).1 = true ↔ Deletable d path s := by
  by_cases hopen : isSameFileOpen d path s = true
  · rw [internalDelete, if_pos hopen]
    constructor
    · exact fun hfalse => by cases hfalse
    · intro hdel
      rw [isSameFileOpen] at hopen
      rcases hdel.2 with ⟨⟨c, hc⟩, hclosed⟩ | hempty
      · rw [hc] at hopen
        exact absurd (hclosed.symm.trans hopen) Bool.false_ne_true
      · rw [hempty] at hopen
        cases hopen
  · have hclosed := Bool.eq_false_of_not_eq_true hopen
    constructor
    · intro hok
      rw [(internalDelete_eq mode hclosed).1, decide_eq_true_eq, unlink] at hok
      split at hok
      · cases hok
      · next hworks =>
        refine ⟨Bool.eq_false_of_not_eq_true hworks, ?_⟩
        split at hok
        · cases hok
        · cases hok
        · next hlook => exact .inr hlook
        · next c hlook =>
          refine .inl ⟨⟨c, hlook⟩, ?_⟩
          rw [isSameFileOpen, hlook] at hclosed
          exact hclosed
    · rintro ⟨hworks, ⟨⟨c, hc⟩, -⟩ | hempty⟩
      · exact internalDelete_file hclosed hc hworks
      · exact internalDelete_empty hempty hworks

lemma internalDelete_root (d : Disk) (mode : ErrorMessageMode) (path : List Char) (s : State) :
    (internalDelete d mode path s).2.root =
      if (internalDelete d mode path s).1 then remove nameKey (resolve path) s.root else s.root :=
        by
  by_cases hopen : isSameFileOpen d path s = true
  · rw [internalDelete, if_pos hopen]
    rfl
  · obtain ⟨-, ⟨hok, -, hroot⟩ | ⟨hfailed, hroot⟩⟩ :=
      internalDelete_spec mode (Bool.eq_false_of_not_eq_true hopen)
    · rw [if_pos hok, hroot]
    · rw [hfailed, if_neg Bool.false_ne_true, hroot]

/-! ### Renaming a file that lies beside its new name -/

/-- The old file lies in the folder of the new name, or below that name. -/
structure Beside (oldFilename newFilename : List Char) (s : State) : Prop where
  drive : (splitDrive oldFilename).1 = (splitDrive newFilename).1
  valid : validPath newFilename = true
  named : isRoot oldFilename = false
  apart : ¬ (resolve oldFilename).map nameKey <+: (resolve newFilename).map nameKey
  below : (resolve newFilename).length ≤ (resolve oldFilename).length
  folder : isDirAt (resolve newFilename).dropLast s = true

variable {oldFilename newFilename : List Char} {c : List UInt8} {f : RenameFaults}

lemma splitDrive_plain (h : hasDrive path = false) : splitDrive path = (['0', ':'], path) := by
  rw [splitDrive, if_neg (by rw [h]; exact Bool.false_ne_true)]

lemma toUpper_digit {x : Char} (h : x.isDigit = true) : x.toUpper = x := by
  simp only [Char.isDigit, Bool.and_eq_true, decide_eq_true_eq] at h
  rw [Char.toUpper, dif_neg]
  intro hlower
  have h1 : x.val.toNat ≤ 57 := UInt32.le_iff_toNat_le.mp h.2
  have h2 : 97 ≤ x.val.toNat := UInt32.le_iff_toNat_le.mp hlower.1
  omega

lemma Beside.plain (h : Beside oldFilename newFilename s) :
    hasDrive (splitDrive newFilename).2 = false := by
  have hvalid := h.valid
  rw [validPath] at hvalid
  match (splitDrive newFilename).2, hvalid with
  | [], _ => rfl
  | [_], _ => rfl
  | x :: y :: rest, hvalid =>
    rw [List.all_cons, List.all_cons, Bool.and_eq_true, Bool.and_eq_true] at hvalid
    have hy : y ≠ ':' := by
      rintro rfl
      exact absurd hvalid.2.1 (by decide)
    simp [hasDrive, hy]

/-- Without its drive, the new name is on the first drive: the same name, or one on another drive.
-/
lemma Beside.first_or_other (h : Beside oldFilename newFilename s) :
    resolve (splitDrive newFilename).2 = resolve newFilename ∨
      nameKey (splitDrive newFilename).1 ≠ nameKey ['0', ':'] := by
  by_cases hkey : nameKey (splitDrive newFilename).1 = nameKey ['0', ':']
  · left
    have hdrive : (splitDrive newFilename).1 = ['0', ':'] := by
      rw [splitDrive] at hkey ⊢
      split at hkey
      · next hhas =>
        rw [if_pos hhas]
        rcases newFilename with _ | ⟨x, _ | ⟨y, rest⟩⟩
        · exact absurd hhas Bool.false_ne_true
        · exact absurd hhas Bool.false_ne_true
        · simp only [hasDrive, Bool.and_eq_true, decide_eq_true_eq] at hhas
          simp only [nameKey, List.take_succ_cons, List.take_zero, List.map_cons, List.map_nil,
            List.cons.injEq, and_true, toUpper_digit hhas.1] at hkey ⊢
          exact ⟨hkey.1, hhas.2⟩
      · next hhas => rw [if_neg hhas]
    rw [resolve, resolve, splitDrive_plain h.plain, hdrive]
  · exact .inr hkey

lemma relink_target (h : Beside oldFilename newFilename s) :
    (splitDrive oldFilename).1 :: components (splitDrive (splitDrive newFilename).2).2 =
      resolve newFilename := by
  rw [splitDrive_plain h.plain, h.drive]
  rfl

lemma relink_iff (h : Beside oldFilename newFilename s) (fails : Bool)
    (hold : lookup nameKey (resolve oldFilename) s'.root = some (.file c))
    (hfolder : isDirAt (resolve newFilename).dropLast s' = true) :
    ((relink fails oldFilename (splitDrive newFilename).2 s').1 = true ↔
      fails = false ∧ isRoot newFilename = false ∧
        lookup nameKey (resolve newFilename) s'.root = none) ∧
    ((relink fails oldFilename (splitDrive newFilename).2 s').1 = false →
      (relink fails oldFilename (splitDrive newFilename).2 s').2.root = s'.root) ∧
    ((relink fails oldFilename (splitDrive newFilename).2 s').1 = true →
      lookup nameKey (resolve newFilename)
        (relink fails oldFilename (splitDrive newFilename).2 s').2.root = some (.file c)) := by
  have hroot : isRoot (splitDrive newFilename).2 = isRoot newFilename := by
    rw [isRoot, isRoot, splitDrive_plain h.plain]
  have hne : (resolve newFilename).map nameKey ≠ (resolve oldFilename).map nameKey :=
    fun heq => h.apart (heq ▸ List.prefix_rfl)
  have hafter : isDirAt (resolve newFilename).dropLast
      { s' with root := remove nameKey (resolve oldFilename) s'.root } = true := by
    rw [isDirAt_iff] at hfolder ⊢
    rw [← hfolder]
    apply shapeAt_remove (resolve_ne_nil _)
    intro hpre
    have hlen := hpre.length_le
    have hbelow := h.below
    have hpos := List.length_pos_of_ne_nil (resolve_ne_nil newFilename)
    simp only [List.length_map, List.length_dropLast] at hlen
    omega
  have hvalid : validPath (splitDrive newFilename).2 = true := by
    rw [validPath, splitDrive_plain h.plain]
    exact h.valid
  rw [relink, hold, relink_target h, hroot, h.named, hfolder, hvalid]
  simp only [Bool.not_false, Bool.and_true, decide_eq_false hne, Bool.or_false]
  split
  · next hgo =>
    simp only [Bool.and_eq_true, Bool.not_eq_true', Option.isNone_iff_eq_none] at hgo
    refine ⟨⟨fun _ => ⟨hgo.1.1, hgo.1.2, hgo.2⟩, fun _ => rfl⟩, fun hf => (by cases hf),
      fun _ => ?_⟩
    exact lookup_place (.file c) (resolve_ne_nil _) hafter
  · next hgo =>
    refine ⟨⟨fun hf => (by cases hf), fun hall => absurd ?_ hgo⟩, fun _ => rfl,
      fun hf => (by cases hf)⟩
    rw [hall.1, hall.2.1, hall.2.2]
    rfl

/-- The name without its drive, under which an old file is looked for and deleted. -/
def firstDrive (newFilename : List Char) : List Char := (splitDrive newFilename).2

def Noticed (f : RenameFaults) (newFilename : List Char) (s : State) : Prop :=
  (fileExists f.newStat newFilename s || directoryExists f.newOpendir newFilename s) = true

/-- What had the new name is found and can be deleted. -/
def Clears (d : Disk) (f : RenameFaults) (newFilename : List Char) (s : State) : Prop :=
  Noticed f newFilename s ∧ Deletable d newFilename s

/-- The renaming comes to the point where what had the new name is deleted. -/
structure Reaches (f : RenameFaults) (newFilename : List Char) (s : State) : Prop where
  found : f.oldStat = false
  folders : (ensurePath f.folders (firstDrive newFilename) true s).1 = true

/-- The file gets its new name. -/
structure Replaces (d : Disk) (f : RenameFaults) (newFilename : List Char) (s : State) : Prop where
  reaches : Reaches f newFilename s
  named : isRoot newFilename = false
  cleared : Noticed f (firstDrive newFilename) s → Clears d f (firstDrive newFilename) s
  free : lookup nameKey (resolve newFilename) s.root = none ∨
    resolve (firstDrive newFilename) = resolve newFilename ∧ Clears d f (firstDrive newFilename) s
  renames : f.rename = false

/-- What had the new name is deleted. -/
structure Removes (d : Disk) (f : RenameFaults) (newFilename : List Char) (s : State) : Prop where
  reaches : Reaches f newFilename s
  cleared : Clears d f (firstDrive newFilename) s
  same : resolve (firstDrive newFilename) = resolve newFilename

lemma Ensured.shape (h : Ensured path s s') :
    shapeAt nameKey (resolve path) s'.root = shapeAt nameKey (resolve path) s.root := by
  cases hlook : lookup nameKey (resolve path) s.root with
  | none => rw [shapeAt_none.mpr (h.absent hlook), shapeAt_none.mpr hlook]
  | some t => exact h.kept _ (by rw [hlook]; rfl)

lemma Ensured.noticed (h : Ensured path s s') : Noticed f path s' ↔ Noticed f path s := by
  cases hlook : lookup nameKey (resolve path) s.root with
  | none =>
    simp [Noticed, fileExists, directoryExists, opendir, hlook, h.absent hlook]
  | some t =>
    have hroot := h.present (by rw [hlook]; rfl)
    simp only [Noticed, fileExists, directoryExists, opendir, hroot]

lemma Ensured.deletable (h : Ensured path s s') : Deletable d path s' ↔ Deletable d path s := by
  cases hlook : lookup nameKey (resolve path) s.root with
  | none => simp [Deletable, hlook, h.absent hlook]
  | some t =>
    have hroot := h.present (by rw [hlook]; rfl)
    simp only [Deletable, hroot, h.unlinks]

lemma Ensured.clears (h : Ensured path s s') : Clears d f path s' ↔ Clears d f path s :=
  and_congr h.noticed h.deletable

lemma resolve_root {path : List Char} (h : isRoot path = true) :
    resolve path = [(splitDrive path).1] := by
  have hslash : ∀ c ∈ (splitDrive path).2, c = '/' := by
    rw [isRoot, List.isEmpty_iff, List.dropWhile_eq_nil_iff] at h
    exact fun c hc => of_decide_eq_true (h c hc)
  have hflat := flatten_components (splitDrive path).2
  rw [List.filter_eq_nil_iff.mpr (fun c hc => by simp [hslash c hc])] at hflat
  rw [resolve]
  congr 1
  apply List.eq_nil_iff_forall_not_mem.mpr
  intro n hn
  have hne : n ≠ [] := of_decide_eq_true (List.mem_filter.mp hn).2
  exact hne (List.flatten_eq_nil_iff.mp hflat n hn)

/-- A drive that holds the old file is not deleted. -/
lemma Beside.root_kept (h : Beside oldFilename newFilename s) (hroot : isRoot newFilename = true)
    (hold : lookup nameKey (resolve oldFilename) s'.root = some (.file c))
    (hsame : resolve (firstDrive newFilename) = resolve newFilename) :
    ¬ Deletable d (firstDrive newFilename) s' := by
  rintro ⟨-, hleaf⟩
  have hpre : (resolve newFilename).map nameKey <+: (resolve oldFilename).map nameKey := by
    rw [resolve_root hroot, ← h.drive, resolve]
    exact ⟨_, rfl⟩
  have hfound : ∃ t, lookup nameKey (resolve newFilename) s'.root = some t ∧
      ∀ ds, t = .dir ds → ds = [] := by
    rw [← hsame]
    rcases hleaf with ⟨⟨c', hc'⟩, -⟩ | hempty
    · exact ⟨_, hc', fun ds hds => by cases hds⟩
    · exact ⟨_, hempty, fun ds hds => (Tree.dir.inj hds).symm⟩
  obtain ⟨t, ht, hnil⟩ := hfound
  apply h.apart
  rw [map_eq_of_leaf hpre ht hnil (by rw [hold]; rfl)]

/-- The way to the old file and to the folder of the new name, once what had that name is gone. -/
lemma Beside.afterDelete (h : Beside oldFilename newFilename s)
    (hold : lookup nameKey (resolve oldFilename) s'.root = some (.file c))
    (hfolder : isDirAt (resolve newFilename).dropLast s' = true)
    (hdel : Deletable d (firstDrive newFilename) s')
    (hroot : s''.root = remove nameKey (resolve (firstDrive newFilename)) s'.root) :
    lookup nameKey (resolve oldFilename) s''.root = some (.file c) ∧
      isDirAt (resolve newFilename).dropLast s'' = true := by
  have hother : ∀ {ns : List Name}, nameKey (splitDrive newFilename).1 ≠ nameKey ['0', ':'] →
      ns.head? = some (splitDrive newFilename).1 ∨ ns = [] →
      ¬ (resolve (firstDrive newFilename)).map nameKey <+: ns.map nameKey := by
    intro ns hne hhead hpre
    rw [resolve, firstDrive, splitDrive_plain h.plain] at hpre
    rcases hhead with hhead | rfl
    · cases ns with
      | nil => cases hhead
      | cons n ns =>
        rw [List.map_cons, List.map_cons, List.cons_prefix_cons] at hpre
        rw [← Option.some.inj hhead] at hne
        exact hne hpre.1.symm
    · exact absurd hpre.length_le (by simp)
  constructor
  · rw [← shapeAt_file] at hold ⊢
    rw [hroot, ← hold]
    apply shapeAt_remove (resolve_ne_nil _)
    intro hpre
    rcases h.first_or_other with hsame | hne
    · have hleaf : ∃ t, lookup nameKey (resolve (firstDrive newFilename)) s'.root = some t ∧
          ∀ ds, t = .dir ds → ds = [] := by
        rcases hdel.2 with ⟨⟨c', hc'⟩, -⟩ | hempty
        · exact ⟨_, hc', fun ds hds => by cases hds⟩
        · exact ⟨_, hempty, fun ds hds => (Tree.dir.inj hds).symm⟩
      obtain ⟨t, ht, hnil⟩ := hleaf
      have heq := map_eq_of_leaf hpre ht hnil (by rw [← isSome_shapeAt, hold]; rfl)
      apply h.apart
      rw [heq, firstDrive, hsame]
    · exact hother hne (.inl (by rw [← h.drive]; rfl)) hpre
  · rw [isDirAt_iff] at hfolder ⊢
    rw [hroot, ← hfolder]
    apply shapeAt_remove (resolve_ne_nil _)
    intro hpre
    rcases h.first_or_other with hsame | hne
    · have hlen := hpre.length_le
      have hpos := List.length_pos_of_ne_nil (resolve_ne_nil newFilename)
      rw [firstDrive, hsame] at hlen
      simp only [List.length_map, List.length_dropLast] at hlen
      omega
    · refine hother hne ?_ hpre
      rw [resolve]
      cases components (splitDrive newFilename).2 with
      | nil => exact .inr rfl
      | cons n ns => exact .inl rfl

lemma clear_spec (d : Disk) (f : RenameFaults) (path : List Char) (s : State) :
    (clear d f path s).1 = true ∧ ¬ Noticed f path s ∧ (clear d f path s).2.root = s.root ∨
    (clear d f path s).1 = true ∧ Clears d f path s ∧
      (clear d f path s).2.root = remove nameKey (resolve path) s.root ∨
    (clear d f path s).1 = false ∧ Noticed f path s ∧ ¬ Clears d f path s ∧
      (clear d f path s).2.root = s.root := by
  rw [clear]
  split
  · next hnoticed =>
    rw [internalDelete_root]
    by_cases hdel : Deletable d path s
    · rw [(internalDelete_iff d .messageAlways path s).mpr hdel]
      exact .inr (.inl ⟨rfl, ⟨hnoticed, hdel⟩, rfl⟩)
    · rw [Bool.eq_false_of_not_eq_true fun hok => hdel ((internalDelete_iff d _ path s).mp hok)]
      exact .inr (.inr ⟨rfl, hnoticed, fun hc => hdel hc.2, rfl⟩)
  · next hnot => exact .inl ⟨rfl, hnot, rfl⟩

/-- What `Rename` comes to once the folders are there. -/
structure Renamed (d : Disk) (f : RenameFaults) (newFilename : List Char) (c : List UInt8)
    (s : State) (r : Bool × State) : Prop where
  iff : r.1 = true ↔ Replaces d f newFilename s
  replaced : r.1 = true → lookup nameKey (resolve newFilename) r.2.root = some (.file c)
  removed : r.1 = false → Removes d f newFilename s →
    lookup nameKey (resolve newFilename) r.2.root = none
  kept : r.1 = false → ¬ Removes d f newFilename s →
    shapeAt nameKey (resolve newFilename) r.2.root = shapeAt nameKey (resolve newFilename) s.root

lemma Renamed.of_not_reached {r : Bool × State} (hreach : ¬ Reaches f newFilename s)
    (hfalse : r.1 = false) (hshape : shapeAt nameKey (resolve newFilename) r.2.root =
      shapeAt nameKey (resolve newFilename) s.root) : Renamed d f newFilename c s r where
  iff := ⟨fun h => absurd (hfalse.symm.trans h) Bool.false_ne_true,
    fun h => absurd h.reaches hreach⟩
  replaced h := absurd (hfalse.symm.trans h) Bool.false_ne_true
  removed _ h := absurd h.reaches hreach
  kept _ _ := hshape

/-- Making folders and deleting on the first drive changes nothing under a new name on another. -/
lemma Beside.shape_ensured (h : Beside oldFilename newFilename s)
    (he : Ensured (firstDrive newFilename) s s') :
    shapeAt nameKey (resolve newFilename) s'.root = shapeAt nameKey (resolve newFilename) s.root :=
      by
  rcases h.first_or_other with hsame | hne
  · rw [← hsame]
    exact he.shape
  · apply he.otherDrive
    rw [firstDrive, splitDrive_plain h.plain]
    exact hne

/-- The last step of `Rename`, after the old entry is out of the way or was not noticed. -/
lemma Beside.renamed (h : Beside oldFilename newFilename s)
    (hold : lookup nameKey (resolve oldFilename) s.root = some (.file c))
    (htidy : isRoot newFilename = false → Tidy nameKey (resolve newFilename).dropLast s.root)
    (hreach : Reaches f newFilename s)
    (he : Ensured (firstDrive newFilename) s s') :
    let r := clear d f (firstDrive newFilename) s'
    Renamed d f newFilename c s (if r.1 then relink f.rename oldFilename (firstDrive newFilename)
      r.2
      else (false, r.2)) := by
  have hold' : lookup nameKey (resolve oldFilename) s'.root = some (.file c) := by
    rw [← shapeAt_file] at hold ⊢
    rw [← hold]
    exact he.kept _ (by rw [← isSome_shapeAt, hold]; rfl)
  have hfolder' : isDirAt (resolve newFilename).dropLast s' = true := by
    have hfolder := isDirAt_iff.mp h.folder
    rw [isDirAt_iff, ← hfolder]
    exact he.kept _ (by rw [← isSome_shapeAt, hfolder]; rfl)
  have hshape := h.shape_ensured he
  have hclears : Clears d f (firstDrive newFilename) s' ↔ Clears d f (firstDrive newFilename) s :=
    he.clears
  have hlookup : ∀ s'' : State, s''.root = s'.root →
      (lookup nameKey (resolve newFilename) s''.root = none ↔
        lookup nameKey (resolve newFilename) s.root = none) := by
    intro s'' hroot
    rw [hroot, ← shapeAt_none, ← shapeAt_none, hshape]
  intro r
  obtain ⟨hok, hnot, hroot⟩ | ⟨hok, hcl, hroot⟩ | ⟨hfailed, hnoticed, hnot, hroot⟩ :=
    clear_spec d f (firstDrive newFilename) s'
  · rw [if_pos hok]
    have hold'' : lookup nameKey (resolve oldFilename) r.2.root = some (.file c) := hroot ▸ hold'
    have hfolder'' : isDirAt (resolve newFilename).dropLast r.2 = true := by
      rw [isDirAt_iff, hroot, ← isDirAt_iff]
      exact hfolder'
    obtain ⟨hiff, hfail, hdone⟩ := relink_iff h f.rename hold'' hfolder''
    have hnot' : ¬ Noticed f (firstDrive newFilename) s := fun hn => hnot (he.noticed.mpr hn)
    refine ⟨?_, hdone, fun hfalse hrem => absurd hrem.cleared.1 hnot', fun hfalse _ => ?_⟩
    · rw [firstDrive, hiff, hlookup _ hroot]
      constructor
      · rintro ⟨hren, hnamed, hnone⟩
        exact ⟨hreach, hnamed, fun hn => absurd hn hnot', .inl hnone, hren⟩
      · intro hrep
        exact ⟨hrep.renames, hrep.named, hrep.free.resolve_right fun hc => hnot' hc.2.1⟩
    · rw [firstDrive, hfail hfalse, hroot, hshape]
  · rw [if_pos hok]
    obtain ⟨hold'', hfolder''⟩ := h.afterDelete hold' hfolder' hcl.2 hroot
    obtain ⟨hiff, hfail, hdone⟩ := relink_iff h f.rename hold'' hfolder''
    have hcl' := hclears.mp hcl
    rcases h.first_or_other with hsame | hne
    · have hgone : lookup nameKey (resolve newFilename) r.2.root = none := by
        have hnamed : isRoot newFilename = false := Bool.eq_false_of_not_eq_true fun hroot =>
          h.root_kept hroot hold' hsame hcl.2
        have hconcat := concat_leaf (resolve_ne_nil newFilename)
        obtain ⟨ds, hds⟩ := shapeAt_dir.mp (isDirAt_iff.mp hfolder')
        rw [hroot, firstDrive, hsame, ← hconcat]
        exact lookup_remove (he.tidy _ (htidy hnamed)) hds _
      refine ⟨?_, hdone, fun hfalse _ => ?_, fun hfalse hrem => absurd ⟨hreach, hcl', hsame⟩ hrem⟩
      · rw [firstDrive, hiff]
        constructor
        · rintro ⟨hren, hnamed, -⟩
          exact ⟨hreach, hnamed, fun _ => hcl', .inr ⟨hsame, hcl'⟩, hren⟩
        · exact fun hrep => ⟨hrep.renames, hrep.named, hgone⟩
      · rw [firstDrive, hfail hfalse]
        exact hgone
    · have hkept : shapeAt nameKey (resolve newFilename) r.2.root =
          shapeAt nameKey (resolve newFilename) s.root := by
        rw [hroot, ← hshape]
        apply shapeAt_remove (resolve_ne_nil _)
        intro hpre
        rw [resolve, resolve, firstDrive, splitDrive_plain h.plain, List.map_cons, List.map_cons,
          List.cons_prefix_cons] at hpre
        exact hne hpre.1.symm
      have hother : resolve (firstDrive newFilename) ≠ resolve newFilename := by
        intro heq
        rw [resolve, resolve, firstDrive, splitDrive_plain h.plain] at heq
        apply hne
        rw [← (List.cons.inj heq).1]
      refine ⟨?_, hdone, fun hfalse hrem => absurd hrem.same hother, fun hfalse _ => ?_⟩
      · rw [firstDrive, hiff, ← shapeAt_none, hkept, shapeAt_none]
        constructor
        · rintro ⟨hren, hnamed, hnone⟩
          exact ⟨hreach, hnamed, fun _ => hcl', .inl hnone, hren⟩
        · exact fun hrep =>
            ⟨hrep.renames, hrep.named, hrep.free.resolve_right fun hc => hother hc.1⟩
      · rw [firstDrive, hfail hfalse]
        exact hkept
  · rw [hfailed, if_neg Bool.false_ne_true]
    have hnot' : ¬ Clears d f (firstDrive newFilename) s := fun hc => hnot (hclears.mpr hc)
    refine ⟨⟨fun hf => (by cases hf), fun hrep => ?_⟩, fun hf => (by cases hf),
      fun _ hrem => absurd hrem.cleared hnot', fun _ _ => ?_⟩
    · exact absurd (hrep.cleared (he.noticed.mp hnoticed)) hnot'
    · rw [hroot, hshape]

theorem rename_spec (d : Disk) (f : RenameFaults) (h : Beside oldFilename newFilename s)
    (hold : lookup nameKey (resolve oldFilename) s.root = some (.file c))
    (htidy : isRoot newFilename = false → Tidy nameKey (resolve newFilename).dropLast s.root) :
    Renamed d f newFilename c s (rename d f oldFilename newFilename true true s) := by
  have hfile : (!fileExists f.oldStat oldFilename s && !directoryExists f.oldOpendir oldFilename s)
    =
      f.oldStat := by
    simp [fileExists, directoryExists, opendir, hold, h.named]
  have he := ensurePath_ensured f.folders (firstDrive newFilename) true s
  rw [rename, hfile]
  dsimp only
  by_cases hstat : f.oldStat = true
  · rw [if_pos hstat]
    apply Renamed.of_not_reached
    · exact fun hreach => absurd (hreach.found.symm.trans hstat) Bool.false_ne_true
    · rfl
    · rfl
  · rw [if_neg hstat]
    cases hens : ensurePath f.folders (firstDrive newFilename) true s with
    | mk ok s' =>
      rw [hens] at he
      cases ok with
      | false =>
        rw [firstDrive] at hens
        rw [hens]
        apply Renamed.of_not_reached
        · intro hreach
          have hfolders := hreach.folders
          rw [firstDrive, hens] at hfolders
          cases hfolders
        · rfl
        · exact h.shape_ensured he
      | true =>
        have hreach : Reaches f newFilename s :=
          ⟨Bool.eq_false_of_not_eq_true hstat, by rw [hens]⟩
        have hrenamed := h.renamed (d := d) hold htidy hreach he
        rw [firstDrive] at hens
        rw [hens]
        rw [firstDrive] at hrenamed
        dsimp only
        rw [if_pos rfl]
        split
        · next s'' heq =>
          rw [heq] at hrenamed
          exact hrenamed
        · next s'' heq =>
          rw [heq] at hrenamed
          dsimp only at hrenamed
          rw [if_pos rfl] at hrenamed
          split
          · next s₃ hlink =>
            rw [hlink] at hrenamed
            exact ⟨hrenamed.iff, hrenamed.replaced, hrenamed.removed, hrenamed.kept⟩
          · next s₃ hlink =>
            rw [hlink] at hrenamed
            exact hrenamed

end RepRapFirmware.Storage.MassStorage
