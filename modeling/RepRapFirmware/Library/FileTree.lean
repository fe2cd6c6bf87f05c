import Mathlib.Data.List.Basic
import Mathlib.Tactic

/-! Trees of files and directories. Names are compared by a key, so that a directory can hold a name
in one spelling and be asked for it in another. -/

namespace RepRapFirmware.Library.FileTree

inductive Tree (N C : Type)
  | file (content : C)
  | dir (entries : List (N × Tree N C))

abbrev Entries (N C : Type) := List (N × Tree N C)

variable {N K C : Type} [DecidableEq K] (key : N → K)

def find (n : N) (es : Entries N C) : Option (Tree N C) :=
  (es.find? fun e => key e.1 = key n).map Prod.snd

def erase (n : N) (es : Entries N C) : Entries N C := es.eraseP fun e => key e.1 = key n

/-- The entries with `f` applied inside the directory `n`. -/
def modify (n : N) (f : Entries N C → Entries N C) : Entries N C → Entries N C
  | [] => []
  | (m, .file c) :: es => (m, .file c) :: if key m = key n then es else modify n f es
  | (m, .dir ds) :: es =>
    if key m = key n then (m, .dir (f ds)) :: es else (m, .dir ds) :: modify n f es

def lookup : List N → Entries N C → Option (Tree N C)
  | [], es => some (.dir es)
  | n :: ns, es =>
    match find key n es with
    | none => none
    | some (.dir ds) => lookup ns ds
    | some (.file c) => if ns.isEmpty then some (.file c) else none

/-- The tree without what is found under a path. -/
def remove : List N → Entries N C → Entries N C
  | [], es => es
  | [n], es => erase key n es
  | n :: m :: ns, es => modify key n (remove (m :: ns)) es

variable {key} {n : N} {es ds : Entries N C}

lemma find_cons (m : N) (t : Tree N C) (es : Entries N C) :
    find key n ((m, t) :: es) = if key m = key n then some t else find key n es := by
  rw [find, List.find?_cons]
  by_cases h : key m = key n
  · simp [h]
  · simp [h, find]

lemma find_modify_dir (f : Entries N C → Entries N C) (h : find key n es = some (.dir ds)) :
    find key n (modify key n f es) = some (.dir (f ds)) := by
  induction es with
  | nil => cases h
  | cons e es ih =>
    obtain ⟨m, t⟩ := e
    rw [find_cons] at h
    by_cases hm : key m = key n
    · rw [if_pos hm] at h
      cases h
      rw [modify, if_pos hm, find_cons, if_pos hm]
    · rw [if_neg hm] at h
      cases t with
      | file c => rw [modify, if_neg hm, find_cons, if_neg hm, ih h]
      | dir es' => rw [modify, if_neg hm, find_cons, if_neg hm, ih h]

lemma modify_modify (f g : Entries N C → Entries N C) (es : Entries N C) :
    modify key n f (modify key n g es) = modify key n (fun ds => f (g ds)) es := by
  induction es with
  | nil => rfl
  | cons e es ih =>
    obtain ⟨m, t⟩ := e
    by_cases hm : key m = key n
    · cases t <;> simp [modify, hm]
    · cases t <;> simp [modify, hm, ih]

lemma erase_modify (f : Entries N C → Entries N C) (es : Entries N C) :
    erase key n (modify key n f es) = erase key n es := by
  induction es with
  | nil => rfl
  | cons e es ih =>
    obtain ⟨m, t⟩ := e
    rw [erase] at ih
    by_cases hm : key m = key n
    · cases t <;> simp [modify, erase, hm]
    · cases t <;> simp [modify, erase, hm, ih]

/-- A change inside a directory leaves every directory in its place. -/
lemma dir_mem_modify {m : N} (f : Entries N C → Entries N C) (h : (m, .dir ds) ∈ es) :
    ∃ ds', (m, .dir ds') ∈ modify key n f es := by
  induction es with
  | nil => cases h
  | cons e es ih =>
    obtain ⟨k, t⟩ := e
    rcases List.mem_cons.mp h with heq | hrest
    · cases heq
      rw [modify]
      split
      · exact ⟨_, List.mem_cons_self⟩
      · exact ⟨_, List.mem_cons_self⟩
    · obtain ⟨ds', hds'⟩ := ih hrest
      cases t with
      | file c =>
        rw [modify]
        split
        · exact ⟨ds, List.mem_cons_of_mem _ hrest⟩
        · exact ⟨ds', List.mem_cons_of_mem _ hds'⟩
      | dir es' =>
        rw [modify]
        split
        · exact ⟨ds, List.mem_cons_of_mem _ hrest⟩
        · exact ⟨ds', List.mem_cons_of_mem _ hds'⟩

lemma lookup_cons_dir {ns : List N} (h : find key n es = some (.dir ds)) :
    lookup key (n :: ns) es = lookup key ns ds := by
  rw [lookup, h]

lemma find_of_lookup_dir {ns : List N} {xs : Entries N C}
    (h : lookup key (n :: ns) es = some (.dir xs)) :
    ∃ ds, find key n es = some (.dir ds) ∧ lookup key ns ds = some (.dir xs) := by
  rw [lookup] at h
  split at h
  · cases h
  · next ds hfind => exact ⟨ds, hfind, h⟩
  · split at h <;> cases h

/-- Below a directory, a path is looked up from there. -/
lemma lookup_append {ns ms : List N} (h : lookup key ns es = some (.dir ds)) :
    lookup key (ns ++ ms) es = lookup key ms ds := by
  induction ns generalizing es with
  | nil => cases h; rfl
  | cons n ns ih =>
    obtain ⟨xs, hfind, hrest⟩ := find_of_lookup_dir h
    rw [List.cons_append, lookup_cons_dir hfind]
    exact ih hrest

lemma lookup_singleton (n : N) (es : Entries N C) : lookup key [n] es = find key n es := by
  rw [lookup]
  split
  · next h => exact h.symm
  · next h => rw [h, lookup]
  · next h => rw [h]; rfl

/-- Removing what is below a directory is a removal from that directory. -/
lemma lookup_remove_append {ns ms : List N} (hms : ms ≠ []) (h : lookup key ns es = some (.dir ds))
    :
    lookup key ns (remove key (ns ++ ms) es) = some (.dir (remove key ms ds)) := by
  induction ns generalizing es with
  | nil => cases h; rfl
  | cons n ns ih =>
    obtain ⟨xs, hfind, hrest⟩ := find_of_lookup_dir h
    have hstep : remove key (n :: (ns ++ ms)) es = modify key n (remove key (ns ++ ms)) es := by
      cases hns : ns ++ ms with
      | nil => exact absurd (List.append_eq_nil_iff.mp hns).2 hms
      | cons m rest => rfl
    rw [List.cons_append, hstep, lookup_cons_dir (find_modify_dir _ hfind)]
    exact ih hrest

/-- Nothing outside a directory depends on a removal below it. -/
lemma remove_remove_append {ns ms : List N} (hns : ns ≠ []) (hms : ms ≠ []) (es : Entries N C) :
    remove key ns (remove key (ns ++ ms) es) = remove key ns es := by
  induction ns generalizing es with
  | nil => exact absurd rfl hns
  | cons n ns ih =>
    have hstep : remove key (n :: (ns ++ ms)) es = modify key n (remove key (ns ++ ms)) es := by
      cases hrest : ns ++ ms with
      | nil => exact absurd (List.append_eq_nil_iff.mp hrest).2 hms
      | cons m rest => rfl
    rw [List.cons_append, hstep]
    cases ns with
    | nil => exact erase_modify _ es
    | cons m rest =>
      change modify key n (remove key (m :: rest)) _ = modify key n (remove key (m :: rest)) es
      rw [modify_modify]
      congr 1
      funext ds
      exact ih (List.cons_ne_nil _ _) ds

/-! ### Changing one directory -/

/-- The tree with `f` applied to the directory found under a path. -/
def update (key : N → K) (f : Entries N C → Entries N C) : List N → Entries N C → Entries N C
  | [], es => f es
  | n :: ns, es => modify key n (update key f ns) es

def insert (key : N → K) (n : N) (t : Tree N C) (es : Entries N C) : Entries N C :=
  (n, t) :: erase key n es

/-- What can be told of a tree from outside: whether it is a file, and what it holds then. -/
def shape : Tree N C → Option C
  | .file c => some c
  | .dir _ => none

def shapeAt (key : N → K) (ns : List N) (es : Entries N C) : Option (Option C) :=
  (lookup key ns es).map shape

section Update

variable {f : Entries N C → Entries N C} {t : Tree N C} {m : N}

lemma find_congr (h : key n = key m) (es : Entries N C) : find key n es = find key m es := by
  rw [find, find, h]

lemma find_erase_of_ne (h : key m ≠ key n) (es : Entries N C) :
    find key m (erase key n es) = find key m es := by
  induction es with
  | nil => rfl
  | cons e es ih =>
    obtain ⟨k, t⟩ := e
    rw [erase] at ih ⊢
    by_cases hk : key k = key n
    · rw [List.eraseP_cons_of_pos (by simpa using hk), find_cons, if_neg]
      exact fun heq => h (heq.symm.trans hk)
    · rw [List.eraseP_cons_of_neg (by simpa using hk), find_cons, find_cons, ih]

lemma find_insert (m : N) (es : Entries N C) :
    find key m (insert key n t es) = if key m = key n then some t else find key m es := by
  rw [insert, find_cons]
  by_cases h : key m = key n
  · rw [if_pos h.symm, if_pos h]
  · rw [if_neg (Ne.symm h), if_neg h, find_erase_of_ne h]

lemma find_modify_of_ne (h : key m ≠ key n) (f : Entries N C → Entries N C) (es : Entries N C) :
    find key m (modify key n f es) = find key m es := by
  induction es with
  | nil => rfl
  | cons e es ih =>
    obtain ⟨k, t⟩ := e
    by_cases hk : key k = key n
    · cases t <;> simp [modify, hk, find_cons, Ne.symm h]
    · cases t <;> simp [modify, hk, find_cons, ih]

lemma find_modify_none (f : Entries N C → Entries N C) (h : find key n es = none) :
    find key n (modify key n f es) = none := by
  induction es with
  | nil => rfl
  | cons e es ih =>
    obtain ⟨k, t⟩ := e
    rw [find_cons] at h
    split at h
    · cases h
    · next hk => cases t <;> simp [modify, hk, find_cons, ih h]

lemma find_modify_file (f : Entries N C → Entries N C) {c : C}
    (h : find key n es = some (.file c)) : find key n (modify key n f es) = some (.file c) := by
  induction es with
  | nil => cases h
  | cons e es ih =>
    obtain ⟨k, t⟩ := e
    rw [find_cons] at h
    by_cases hk : key k = key n
    · rw [if_pos hk] at h
      cases h
      rw [modify, if_pos hk, find_cons, if_pos hk]
    · rw [if_neg hk] at h
      cases t <;> simp [modify, hk, find_cons, ih h]

lemma lookup_update {ns : List N} (f : Entries N C → Entries N C)
    (h : lookup key ns es = some (.dir ds)) :
    lookup key ns (update key f ns es) = some (.dir (f ds)) := by
  induction ns generalizing es with
  | nil => cases h; rfl
  | cons n ns ih =>
    obtain ⟨xs, hfind, hrest⟩ := find_of_lookup_dir h
    rw [update, lookup_cons_dir (find_modify_dir _ hfind)]
    exact ih hrest

/-- A change of the entry `n` of a directory leaves what is not found under it. -/
lemma shapeAt_update {ns ms : List N} (hf : ∀ m ds, key m ≠ key n → find key m (f ds) =
    find key m ds)
    (h : ¬ (ns ++ [n]).map key <+: ms.map key) (es : Entries N C) :
    shapeAt key ms (update key f ns es) = shapeAt key ms es := by
  induction ns generalizing ms es with
  | nil =>
    cases ms with
    | nil => rfl
    | cons m ms =>
      have hne : key m ≠ key n := by
        intro heq
        apply h
        simp [heq]
      rw [update, shapeAt, shapeAt, lookup, lookup, hf m es hne]
  | cons k ns ih =>
    cases ms with
    | nil => rfl
    | cons m ms =>
      rw [update, shapeAt, shapeAt, lookup, lookup]
      by_cases hm : key m = key k
      · rw [find_congr hm, find_congr hm]
        cases hfind : find key k es with
        | none => rw [find_modify_none _ hfind]
        | some t =>
          cases t with
          | file c => rw [find_modify_file _ hfind]
          | dir ds =>
            rw [find_modify_dir _ hfind]
            apply ih
            intro hpre
            apply h
            simpa [hm] using hpre
      · rw [find_modify_of_ne hm]

/-- Where something is found, its folders are found as well. -/
lemma lookup_isSome_above {ns ms : List N} (h : ms.map key <+: ns.map key)
    (hns : (lookup key ns es).isSome) : (lookup key ms es).isSome := by
  induction ms generalizing ns es with
  | nil => rfl
  | cons m ms ih =>
    cases ns with
    | nil => exact absurd h.length_le (by simp)
    | cons n ns =>
      rw [List.map_cons, List.map_cons, List.cons_prefix_cons] at h
      rw [lookup] at hns ⊢
      rw [find_congr h.1]
      cases hfind : find key n es with
      | none => rw [hfind] at hns; cases hns
      | some t =>
        rw [hfind] at hns
        cases t with
        | dir ds => exact ih h.2 hns
        | file c =>
          cases ns with
          | nil =>
            obtain rfl : ms = [] := by simpa using h.2.length_le
            rfl
          | cons k ns => cases hns

lemma lookup_congr {ns ms : List N} (h : ns.map key = ms.map key) (es : Entries N C) :
    lookup key ns es = lookup key ms es := by
  induction ns generalizing ms es with
  | nil =>
    obtain rfl : ms = [] := by simpa using h.symm
    rfl
  | cons n ns ih =>
    cases ms with
    | nil => cases h
    | cons m ms =>
      rw [List.map_cons, List.map_cons, List.cons.injEq] at h
      have hempty : ns.isEmpty = ms.isEmpty := by
        have hlen : ns.length = ms.length := by simpa using congrArg List.length h.2
        rw [Bool.eq_iff_iff, List.isEmpty_iff_length_eq_zero, List.isEmpty_iff_length_eq_zero, hlen]
      rw [lookup, lookup, find_congr h.1, hempty]
      cases find key m es with
      | none => rfl
      | some t =>
        cases t with
        | file c => rfl
        | dir ds => exact ih h.2 ds

/-- Nothing is found below a file or an empty directory. -/
lemma map_eq_of_leaf {ns ms : List N} {t : Tree N C} (h : ms.map key <+: ns.map key)
    (hms : lookup key ms es = some t) (ht : ∀ ds, t = .dir ds → ds = [])
    (hns : (lookup key ns es).isSome) : ns.map key = ms.map key := by
  induction ms generalizing ns es with
  | nil =>
    cases hms
    obtain rfl := ht es rfl
    cases ns with
    | nil => rfl
    | cons n ns => cases hns
  | cons m ms ih =>
    cases ns with
    | nil => exact absurd h.length_le (by simp)
    | cons n ns =>
      rw [List.map_cons, List.map_cons, List.cons_prefix_cons] at h
      rw [lookup, ← find_congr h.1] at hns
      rw [lookup] at hms
      rw [List.map_cons, List.map_cons, h.1]
      congr 1
      cases hfind : find key m es with
      | none => rw [hfind] at hms; cases hms
      | some t' =>
        rw [hfind] at hns hms
        cases t' with
        | dir ds => exact ih h.2 hms hns
        | file c =>
          cases ns with
          | cons k ns => cases hns
          | nil =>
            obtain rfl : ms = [] := by simpa using h.2.length_le
            rfl

lemma lookup_dir_above {ns ms : List N} (h : ms.map key <+: ns.map key)
    (hlt : ms.length < ns.length) (hns : (lookup key ns es).isSome) :
    ∃ ds, lookup key ms es = some (.dir ds) := by
  obtain ⟨t, ht⟩ := Option.isSome_iff_exists.mp (lookup_isSome_above h hns)
  cases t with
  | dir ds => exact ⟨ds, ht⟩
  | file c =>
    have heq := congrArg List.length (map_eq_of_leaf h ht (fun ds hds => nomatch hds) hns)
    simp only [List.length_map] at heq
    omega

lemma isSome_shapeAt (ns : List N) (es : Entries N C) :
    (shapeAt key ns es).isSome = (lookup key ns es).isSome := Option.isSome_map

lemma shapeAt_file {ns : List N} {c : C} :
    shapeAt key ns es = some (some c) ↔ lookup key ns es = some (.file c) := by
  rw [shapeAt]
  cases h : lookup key ns es with
  | none => simp
  | some t => cases t <;> simp [shape]

lemma shapeAt_dir {ns : List N} :
    shapeAt key ns es = some none ↔ ∃ ds, lookup key ns es = some (.dir ds) := by
  rw [shapeAt]
  cases h : lookup key ns es with
  | none => simp
  | some t => cases t <;> simp [shape]

lemma shapeAt_none {ns : List N} : shapeAt key ns es = none ↔ lookup key ns es = none := by
  rw [shapeAt, Option.map_eq_none_iff]

lemma remove_concat (ns : List N) (n : N) (es : Entries N C) :
    remove key (ns ++ [n]) es = update key (erase key n) ns es := by
  induction ns generalizing es with
  | nil => rfl
  | cons m ns ih =>
    have hstep : remove key (m :: (ns ++ [n])) es = modify key m (remove key (ns ++ [n])) es := by
      cases hrest : ns ++ [n] with
      | nil => cases ns <;> cases hrest
      | cons k rest => rfl
    rw [List.cons_append, hstep, update]
    congr 1
    funext ds
    exact ih ds

lemma shapeAt_remove {ns ms : List N} (hms : ms ≠ []) (h : ¬ ms.map key <+: ns.map key)
    (es : Entries N C) : shapeAt key ns (remove key ms es) = shapeAt key ns es := by
  have hconcat : ms = ms.dropLast ++ [ms.getLast hms] := (List.dropLast_append_getLast hms).symm
  rw [hconcat, remove_concat]
  apply shapeAt_update (n := ms.getLast hms)
  · exact fun m ds hm => find_erase_of_ne hm ds
  · rw [← hconcat]
    exact h

end Update

/-! ### Directories that list every name once -/

/-- The directory found under a path, if there is one, lists every name once. -/
def Tidy (key : N → K) : List N → Entries N C → Prop
  | [], es => (es.map fun e => key e.1).Nodup
  | n :: ns, es => ∀ ds, find key n es = some (.dir ds) → Tidy key ns ds

section Tidy

variable {ns ms : List N} {t : Tree N C}

lemma tidy_nil (ns : List N) : Tidy key ns ([] : Entries N C) := by
  cases ns with
  | nil => exact List.nodup_nil
  | cons n ns => exact fun ds h => nomatch h

lemma keys_modify (f : Entries N C → Entries N C) (es : Entries N C) :
    (modify key n f es).map (fun e => key e.1) = es.map fun e => key e.1 := by
  induction es with
  | nil => rfl
  | cons e es ih =>
    obtain ⟨k, t⟩ := e
    by_cases hk : key k = key n
    · cases t <;> simp [modify, hk]
    · cases t <;> simp [modify, hk, ih]

lemma find_eq_none (h : key n ∉ es.map fun e => key e.1) : find key n es = none := by
  induction es with
  | nil => rfl
  | cons e es ih =>
    obtain ⟨k, t⟩ := e
    rw [List.map_cons, List.mem_cons, not_or] at h
    rw [find_cons, if_neg (Ne.symm h.1), ih h.2]

lemma notMem_erase (h : (es.map fun e => key e.1).Nodup) :
    key n ∉ (erase key n es).map fun e => key e.1 := by
  induction es with
  | nil => exact List.not_mem_nil
  | cons e es ih =>
    obtain ⟨k, t⟩ := e
    rw [List.map_cons, List.nodup_cons] at h
    rw [erase] at ih ⊢
    by_cases hk : key k = key n
    · rw [List.eraseP_cons_of_pos (by simpa using hk), ← hk]
      exact h.1
    · rw [List.eraseP_cons_of_neg (by simpa using hk), List.map_cons, List.mem_cons, not_or]
      exact ⟨Ne.symm hk, ih h.2⟩

lemma Tidy.insert (h : Tidy key ms es) (ht : ∀ ds, t = .dir ds → ds = []) (n : N) :
    Tidy key ms (FileTree.insert key n t es) := by
  cases ms with
  | nil =>
    rw [Tidy, FileTree.insert, List.map_cons, List.nodup_cons]
    exact ⟨notMem_erase h, List.Nodup.sublist (List.eraseP_sublist.map _) h⟩
  | cons m ms =>
    intro ds hds
    rw [find_insert] at hds
    split at hds
    · obtain rfl := ht ds (Option.some.inj hds)
      exact tidy_nil ms
    · exact h ds hds

lemma Tidy.update (h : Tidy key ms es) (ht : ∀ ds, t = .dir ds → ds = []) (ns : List N) (n : N) :
    Tidy key ms (update key (FileTree.insert key n t) ns es) := by
  induction ns generalizing ms es with
  | nil => exact h.insert ht n
  | cons k ns ih =>
    cases ms with
    | nil =>
      rw [Tidy, FileTree.update, keys_modify]
      exact h
    | cons m ms =>
      intro ds hds
      rw [FileTree.update] at hds
      by_cases hm : key m = key k
      · rw [find_congr hm] at hds
        cases hfind : find key k es with
        | none => rw [find_modify_none _ hfind] at hds; cases hds
        | some t' =>
          cases t' with
          | file c => rw [find_modify_file _ hfind] at hds; cases hds
          | dir xs =>
            rw [find_modify_dir _ hfind] at hds
            cases hds
            exact ih (h xs (by rw [find_congr hm, hfind]))
      · rw [find_modify_of_ne hm] at hds
        exact h ds hds

/-- What was removed from a tidy directory is gone. -/
lemma lookup_remove (h : Tidy key ns es) (hdir : lookup key ns es = some (.dir ds)) (n : N) :
    lookup key (ns ++ [n]) (remove key (ns ++ [n]) es) = none := by
  have htidy : (ds.map fun e => key e.1).Nodup := by
    clear n
    induction ns generalizing es with
    | nil => cases hdir; exact h
    | cons m ns ih =>
      obtain ⟨xs, hfind, hrest⟩ := find_of_lookup_dir hdir
      exact ih (h xs hfind) hrest
  rw [lookup_append (lookup_remove_append (List.cons_ne_nil n []) hdir), lookup_singleton]
  exact find_eq_none (notMem_erase htidy)

end Tidy

end RepRapFirmware.Library.FileTree
