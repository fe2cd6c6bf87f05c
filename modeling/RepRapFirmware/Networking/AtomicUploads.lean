import Mathlib
import RepRapFirmware.Networking.Uploads

/-! Uploads replace files as a whole, or leave them alone,
  where the last step of an upload works. -/

namespace RepRapFirmware.Networking.UploadingNetworkResponder

open Library.FileTree Library.Runs Storage MassStorage

/-! ### The name of the temporary file -/

section Names

variable {xs e : List Char}

lemma last_slash (xs : List Char) :
    (∃ zs ys, xs = zs ++ '/' :: ys ∧ '/' ∉ ys) ∨ '/' ∉ xs := by
  induction xs with
  | nil => exact .inr List.not_mem_nil
  | cons c cs ih =>
    rcases ih with ⟨zs, ys, rfl, hys⟩ | hcs
    · exact .inl ⟨c :: zs, ys, rfl, hys⟩
    · by_cases hc : c = '/'
      · subst hc
        exact .inl ⟨[], cs, rfl, hcs⟩
      · refine .inr fun hmem => ?_
        rcases List.mem_cons.mp hmem with heq | hmem
        · exact hc heq.symm
        · exact hcs hmem

lemma components_noSlash (h : '/' ∉ xs) : components xs = if xs = [] then [] else [xs] := by
  have hnone : ∀ c ∈ xs, (c == '/') = false := by
    intro c hc
    rw [beq_eq_false_iff_ne]
    rintro rfl
    exact h hc
  rw [components, List.splitOn, List.splitOnP_eq_singleton hnone]
  by_cases hxs : xs = []
  · simp [hxs]
  · simp [hxs]

/-- An extension joins the last name of a path, or is a name of its own after a slash. -/
lemma components_extend (he : e ≠ []) (hslash : '/' ∉ e) (xs : List Char) :
    ∃ cs l, (components xs = cs ∨ components xs = cs ++ [l]) ∧
      components (xs ++ e) = cs ++ [l ++ e] := by
  have hleaf : ∀ ys : List Char, '/' ∉ ys → components (ys ++ e) = [ys ++ e] ∧
      (components ys = [] ∨ components ys = [ys]) := by
    intro ys hys
    constructor
    · rw [components_noSlash (by simp [hys, hslash]), if_neg (by simp [he])]
    · rw [components_noSlash hys]
      split
      · exact .inl rfl
      · exact .inr rfl
  rcases last_slash xs with ⟨zs, ys, rfl, hys⟩ | hxs
  · obtain ⟨hext, hys'⟩ := hleaf ys hys
    refine ⟨components zs, ys, ?_, ?_⟩
    · rw [components_append]
      rcases hys' with h | h
      · exact .inl (by rw [h, List.append_nil])
      · exact .inr (by rw [h])
    · rw [List.append_assoc, List.cons_append, components_append, hext]
  · obtain ⟨hext, hxs'⟩ := hleaf xs hxs
    exact ⟨[], xs, hxs', hext⟩

lemma splitDrive_part (path : List Char) : splitDrive (path ++ uploadExtension) =
    ((splitDrive path).1, (splitDrive path).2 ++ uploadExtension) := by
  have hdrive : hasDrive (path ++ uploadExtension) = hasDrive path := by
    rcases path with _ | ⟨c, _ | ⟨d, rest⟩⟩
    · rfl
    · simp [hasDrive, uploadExtension]
    · rfl
  rw [splitDrive, splitDrive, hdrive]
  split
  · next h =>
    rcases path with _ | ⟨c, _ | ⟨d, rest⟩⟩
    · exact absurd h Bool.false_ne_true
    · exact absurd h Bool.false_ne_true
    · rfl
  · rfl

lemma flatten_nameKey (ns : List Name) : (ns.map nameKey).flatten = ns.flatten.map Char.toUpper :=
    by
  rw [List.map_flatten]
  rfl

/-- A path with the extension is not on the way to the path. -/
lemma part_apart (path : List Char) :
    ¬ (resolve (path ++ uploadExtension)).map nameKey <+: (resolve path).map nameKey := by
  rintro ⟨more, hmore⟩
  have hlen := congrArg (fun ns => ns.flatten.length) hmore
  rw [resolve, resolve, splitDrive_part] at hlen
  simp only [List.flatten_append, List.length_append, flatten_nameKey, List.length_map,
    List.flatten_cons, flatten_components, List.filter_append] at hlen
  have hext : (uploadExtension.filter (· ≠ '/')).length = 5 := rfl
  omega

lemma isDirAt_above {ns ms : List Name} {s : State} (h : ms <+: ns)
    (hns : isDirAt ns s = true) : isDirAt ms s = true := by
  obtain ⟨ds, hds⟩ := shapeAt_dir.mp (isDirAt_iff.mp hns)
  by_cases hlt : ms.length < ns.length
  · obtain ⟨es, hes⟩ := lookup_dir_above (h.map nameKey) hlt (by rw [hds]; rfl)
    rw [isDirAt, hes]
  · rw [h.eq_of_length (le_antisymm h.length_le (not_lt.mp hlt))]
    exact hns

/-- The temporary file of a name lies in the folder of the name, or below it. -/
lemma beside_part {path : List Char} {s : State}
    (hvalid : validPath (path ++ uploadExtension) = true)
    (hnamed : isRoot (path ++ uploadExtension) = false)
    (hfolder : isDirAt (resolve (path ++ uploadExtension)).dropLast s = true) :
    Beside (path ++ uploadExtension) path s := by
  obtain ⟨cs, l, hcs, hext⟩ := components_extend (e := uploadExtension) (by decide) (by decide)
    (splitDrive path).2
  have hold : resolve (path ++ uploadExtension) =
      (splitDrive path).1 :: cs ++ [l ++ uploadExtension] := by
    rw [resolve, splitDrive_part, hext]
    rfl
  refine ⟨by rw [splitDrive_part], ?_, hnamed, part_apart path, ?_, ?_⟩
  · rw [validPath, splitDrive_part, List.all_append, Bool.and_eq_true] at hvalid
    exact hvalid.1
  · rw [hold, resolve]
    rcases hcs with h | h
    · simp [h]
    · simp [h]
  · rw [hold, List.dropLast_concat] at hfolder
    rw [resolve]
    rcases hcs with h | h
    · rw [h]
      exact isDirAt_above (List.dropLast_prefix _) hfolder
    · rw [h, ← List.cons_append, List.dropLast_concat]
      exact hfolder

end Names

lemma combineName_starts (r : Request) {path : List Char}
    (h : combineName r.folder r.fileName = some path) :
    path.head? = some '/' ∨ hasDrive path = true := by
  rw [combineName] at h
  split at h
  · next hjoin =>
    split at h
    · obtain rfl := Option.some.inj h
      cases r with
      | http fileName postFileLength expectedCrc => exact .inr rfl
      | ftp currentDirectory fileName =>
        obtain ⟨d, hd⟩ := currentDirectory
        cases d with
        | nil => cases hd
        | cons c rest =>
          left
          obtain rfl : c = '/' := Option.some.inj hd
          have hslash : ∃ more, addSlash ('/' :: rest) = '/' :: more := by
            rw [addSlash]
            split
            · exact ⟨_, rfl⟩
            · exact ⟨_, rfl⟩
          obtain ⟨more, hmore⟩ := hslash
          rw [Request.folder, hmore]
          rfl
    · cases h
  · next hlong =>
    have hfolder : r.folder ≠ [] := by
      cases r with
      | http fileName postFileLength expectedCrc => exact fun hnil => by cases hnil
      | ftp currentDirectory fileName =>
        intro hnil
        have hhead := currentDirectory.2
        rw [Request.folder] at hnil
        rw [hnil] at hhead
        cases hhead
    split at h
    · obtain rfl := Option.some.inj h
      by_contra hnot
      rw [not_or] at hnot
      exact hlong ⟨hfolder, hnot.1, Bool.eq_false_of_not_eq_true hnot.2⟩
    · cases h

/-- A name that was combined with its folder once is not combined again. -/
lemma combineName_again (r : Request) {path : List Char}
    (h : combineName r.folder r.fileName = some path)
    (hlen : (path ++ uploadExtension).length ≤ maxFilenameLength) :
    combineName r.folder (path ++ uploadExtension) = some (path ++ uploadExtension) := by
  have hstart : ¬ (r.folder ≠ [] ∧ (path ++ uploadExtension).head? ≠ some '/' ∧
      hasDrive (path ++ uploadExtension) = false) := by
    rintro ⟨-, hhead, hdrive⟩
    rcases combineName_starts r h with hslash | hhas
    · cases path with
      | nil => cases hslash
      | cons c cs => exact hhead hslash
    · match path, hhas with
      | c :: d :: cs, hhas => exact Bool.false_ne_true (hdrive.symm.trans hhas)
  rw [combineName, if_neg hstart, List.nil_append, if_pos hlen]

/-! ### What an upload promises -/

namespace Request

/-- The length that the client announces. -/
def announcedLength : Request → Option ℕ
  | http _ postFileLength _ => some postFileLength.toNat
  | ftp _ _ => none

end Request

structure AsAnnounced (crc32 : List UInt8 → UInt32) (r : Request) (data : List UInt8) : Prop where
  length : ∀ n, r.announcedLength = some n → data.length = n
  crc : ∀ c, r.expectedCrc = some c → crc32 data = c

/-- The file stored under the requested name. -/
def requestedFile (r : Request) (s : State) : Option (List UInt8) :=
  (combineName r.folder r.fileName).bind (fileAt · s)

/-- An upload that is reported as successful has stored what was received, as announced. Any other
leaves the file of that name as it was. -/
def Atomic (crc32 : List UInt8 → UInt32) (r : Request) (before : State) (u : Upload) : Prop :=
  if u.report = some true then
    requestedFile r u.drives = some u.received ∧ AsAnnounced crc32 r u.received
  else requestedFile r u.drives = requestedFile r before

/-! ### The temporary file and the file of the name -/

/-- The temporary file of a name is there, in a folder that lists every name once. -/
structure Prepared (path : List Char) (c : List UInt8) (s : State) : Prop where
  temp : lookup nameKey (resolve (path ++ uploadExtension)) s.root = some (.file c)
  beside : Beside (path ++ uploadExtension) path s
  tidy : isRoot path = false → Tidy nameKey (resolve path).dropLast s.root

variable {path : List Char} {s s' : State} {c : List UInt8} {a : Answers}

lemma fileAt_place (t : Tree Name (List UInt8)) :
    fileAt path (place (resolve (path ++ uploadExtension)) t s) = fileAt path s := by
  rw [fileAt, fileAt, shapeAt_place t (resolve_ne_nil _) (part_apart path)]

lemma fileAt_delete (mode : ErrorMessageMode) :
    fileAt path (deleteUpload a mode (path ++ uploadExtension) s) = fileAt path s := by
  have hroot : (deleteUpload a mode (path ++ uploadExtension) s).root =
      (internalDelete a.disk mode (path ++ uploadExtension) s).2.root := rfl
  rw [fileAt, fileAt, hroot, internalDelete_root]
  split
  · rw [shapeAt_remove (resolve_ne_nil _) (part_apart path)]
  · rfl

lemma beside_place (t : Tree Name (List UInt8)) (h : Beside (path ++ uploadExtension) path s) :
    Beside (path ++ uploadExtension) path (place (resolve (path ++ uploadExtension)) t s) := by
  refine ⟨h.drive, h.valid, h.named, h.apart, h.below, ?_⟩
  have hfolder := isDirAt_iff.mp h.folder
  rw [isDirAt_iff, ← hfolder]
  apply shapeAt_place _ (resolve_ne_nil _)
  intro hpre
  have hlen := hpre.length_le
  have hbelow := h.below
  have hpos := List.length_pos_of_ne_nil (resolve_ne_nil path)
  simp only [List.length_map, List.length_dropLast] at hlen
  omega

lemma Prepared.place {c' : List UInt8} (h : Prepared path c s) :
    Prepared path c' (place (resolve (path ++ uploadExtension)) (.file c') s) := by
  have hdir : isDirAt (resolve (path ++ uploadExtension)).dropLast s = true := by
    have hpos := List.length_pos_of_ne_nil (resolve_ne_nil (path ++ uploadExtension))
    have hsome : (lookup nameKey (resolve (path ++ uploadExtension)) s.root).isSome := by
      rw [h.temp]
      rfl
    obtain ⟨ds, hds⟩ := lookup_dir_above ((List.dropLast_prefix _).map nameKey)
      (by rw [List.length_dropLast]; omega) hsome
    rw [isDirAt, hds]
  refine ⟨lookup_place _ (resolve_ne_nil _) hdir, beside_place _ h.beside, fun hroot => ?_⟩
  apply (h.tidy hroot).update
  exact fun ds hds => by cases hds

lemma openFile_spec {folder : List Char} {withCrc : Bool} {n : ℕ} {file : Option FileStore.File}
    (hname : combineName folder (path ++ uploadExtension) = some (path ++ uploadExtension))
    (htidy : isRoot path = false → Tidy nameKey (resolve path).dropLast s.root)
    (h : openFile a folder (path ++ uploadExtension) withCrc n s = (file, s')) :
    fileAt path s' = fileAt path s ∧ ∀ f, file = some f →
      Prepared path [] s' ∧ FileStore.Holds f [] ∧ f.allocated ≤ n ∧ f.calcCrc = withCrc := by
  rw [openFile, hname] at h
  have he := ensurePath_ensured a.folders (path ++ uploadExtension) true s
  cases hens : ensurePath a.folders (path ++ uploadExtension) true s with
  | mk ok s₁ =>
    rw [hens] at he
    dsimp only at h
    rw [hens] at h
    cases ok with
    | false =>
      cases h
      exact ⟨he.fileAt, fun f hf => nomatch hf⟩
    | true =>
      dsimp only at h
      split at h
      · next hopen =>
        simp only [Bool.and_eq_true, Bool.not_eq_true'] at hopen
        obtain ⟨⟨⟨⟨-, hvalid⟩, hnamed⟩, -⟩, hfolder⟩ := hopen
        obtain ⟨hfile, rfl⟩ := Prod.mk.inj h
        refine ⟨(fileAt_place _).trans he.fileAt, ?_⟩
        rintro f rfl
        obtain rfl := Option.some.inj hfile
        have hbeside := beside_place (.file []) (beside_part hvalid hnamed hfolder)
        refine ⟨⟨lookup_place _ (resolve_ne_nil _) hfolder, hbeside, fun hroot => ?_⟩, ?_, ?_, rfl⟩
        · apply (he.tidy _ (htidy hroot)).update
          exact fun ds hds => nomatch hds
        · refine ⟨?_, fun _ => rfl, fun buf hbuf => ?_⟩
          · dsimp only
            split
            · rfl
            · rfl
          · dsimp only at hbuf
            split at hbuf
            · cases hbuf
              decide
            · cases hbuf
        · dsimp only
          split
          · exact le_rfl
          · exact Nat.zero_le n
      · cases h
        exact ⟨he.fileAt, fun f hf => nomatch hf⟩

/-! ### While data is received -/

/-- The upload goes to the temporary file of the requested name, and the file of that name is what
it was. -/
structure Named (r : Request) (before : State) (path : List Char) (u : Upload) : Prop where
  named : combineName r.folder r.fileName = some path
  name : u.filenameBeingProcessed = path ++ uploadExtension
  prepared : Prepared path [] u.drives
  stored : fileAt path u.drives = fileAt path before

structure Transfers (r : Request) (before : State) (path : List Char) (file : FileStore.File)
    (u : Upload) : Prop extends Named r before path u where
  live : u.fileBeingUploaded = some file
  holds : FileStore.Holds file u.received
  allocated : file.allocated ≤ r.fileLength
  calcCrc : file.calcCrc = r.expectedCrc.isSome

/-- A dummy upload has no file. -/
def Dummy (r : Request) (before : State) (u : Upload) : Prop :=
  u.fileBeingUploaded = none ∧ requestedFile r u.drives = requestedFile r before

structure Receiving (r : Request) (before : State) (u : Upload) : Prop where
  noError : u.uploadError = false
  noReport : u.report = none
  counted : u.uploadedBytes ≤ u.received.length
  file : Dummy r before u ∨ ∃ path file, Transfers r before path file u

/-- Nothing has happened to the requested file, and nothing was reported of it. -/
structure Untouched (r : Request) (before : State) (u : Upload) : Prop where
  report : u.report ≠ some true
  stored : requestedFile r u.drives = requestedFile r before

variable {r : Request} {before : State} {u : Upload} {file : FileStore.File}

lemma requestedFile_eq (h : combineName r.folder r.fileName = some path) (s : State) :
    requestedFile r s = fileAt path s := by
  rw [requestedFile, h, Option.bind_some]

lemma Named.requested (h : Named r before path u) :
    requestedFile r u.drives = requestedFile r before := by
  rw [requestedFile_eq h.named, requestedFile_eq h.named, h.stored]

lemma Receiving.untouched (h : Receiving r before u) : Untouched r before u := by
  have hreport : u.report ≠ some true := by
    rw [h.noReport]
    exact fun hf => nomatch hf
  refine ⟨hreport, ?_⟩
  rcases h.file with hdummy | ⟨path, file, htransfers⟩
  · exact hdummy.2
  · exact htransfers.requested

lemma fileAt_closeFile (h : Named r before path u) (file : FileStore.File) :
    fileAt path (closeFile a file u) = fileAt path before := by
  rw [closeFile, h.name, fileAt_place, h.stored]

lemma Named.cancel (h : Named r before path u) (hreport : u.report ≠ some true) :
    Untouched r before (cancelUpload a u) := by
  rw [cancelUpload]
  split
  · exact ⟨hreport, h.requested⟩
  · next file hlive =>
    refine ⟨hreport, ?_⟩
    rw [requestedFile_eq h.named, requestedFile_eq h.named]
    dsimp only
    split
    · rw [h.name, fileAt_delete, fileAt_closeFile h]
    · exact fileAt_closeFile h file

lemma Receiving.cancel (h : Receiving r before u) : Untouched r before (cancelUpload a u) := by
  rcases h.file with hdummy | ⟨path, file, htransfers⟩
  · rw [cancelUpload, hdummy.1]
    exact h.untouched
  · exact htransfers.toNamed.cancel h.untouched.report

lemma writeFailed_untouched (h : Named r before path u) (hreport : u.report ≠ some true) :
    Untouched r before (writeFailed a u) ∧
      (writeFailed a u).responderState ≠ .uploading := by
  have hcancel : Untouched r before (cancelUpload a { u with uploadError := true }) :=
    Named.cancel ⟨h.named, h.name, h.prepared, h.stored⟩ hreport
  have herror : (cancelUpload a { u with uploadError := true }).uploadError = true := by
    rw [cancelUpload]
    split
    · rfl
    · rfl
  refine ⟨⟨?_, hcancel.stored⟩, ResponderState.noConfusion⟩
  rw [writeFailed, respond, herror]
  split
  · exact fun hf => nomatch hf
  · exact fun hf => nomatch hf

lemma Http.takeBuffers_spec (n : ℕ) (buffers : List (List UInt8)) (h : Receiving r before u) :
    (∀ u', Http.takeBuffers a n buffers u = (true, u') →
      Receiving r before u' ∧ u'.responderState = u.responderState) ∧
    ∀ u', Http.takeBuffers a n buffers u = (false, u') →
      u'.report ≠ some true ∧ ∃ path, Named r before path u' := by
  induction buffers generalizing n u with
  | nil =>
    constructor
    · rintro u' ⟨⟩
      exact ⟨h, rfl⟩
    · rintro u' ⟨⟩
  | cons buffer buffers ih =>
    rw [takeBuffers]
    split
    · next hroom =>
      have hcounted : (u.uploadedBytes + buffer.length) % 2 ^ 32 ≤ (u.received ++ buffer).length :=
          by
        have := h.counted
        have := Nat.mod_le (u.uploadedBytes + buffer.length) (2 ^ 32)
        rw [List.length_append]
        omega
      rcases h.file with hdummy | ⟨path, file, ht⟩
      · rw [hdummy.1]
        exact ih _ ⟨h.noError, h.noReport, hcounted, .inl ⟨rfl, hdummy.2⟩⟩
      · rw [ht.live]
        dsimp only
        split
        · next file' hwrite =>
          constructor
          · rintro u' ⟨⟩
          · rintro u' ⟨⟩
            exact ⟨h.untouched.report, path, ht.named, ht.name, ht.prepared, ht.stored⟩
        · next file' hwrite =>
          obtain ⟨hholds, hsame⟩ := FileStore.write_spec ht.holds hwrite
          exact ih _ ⟨h.noError, h.noReport, hcounted, .inr ⟨path, file',
            ⟨ht.named, ht.name, ht.prepared, ht.stored⟩, rfl, hholds,
            hsame.allocated.trans_le ht.allocated, hsame.calcCrc.trans ht.calcCrc⟩⟩
    · constructor
      · rintro u' ⟨⟩
        exact ⟨h, rfl⟩
      · rintro u' ⟨⟩

/-- The upload goes on as before, it is over without any effect, or it is about to be finished. -/
def Leads (r : Request) (before : State) : Progress → Prop
  | .goesOn u => Receiving r before u ∧ u.responderState = .uploading ∨
      Untouched r before u ∧ u.responderState ≠ .uploading
  | .finishing u => Receiving r before u ∧ r.fileLength ≤ u.received.length

lemma Http.doUpload_spec (h : Receiving r before u) (hstate : u.responderState = .uploading)
    (buffers : List (List UInt8)) (canRead timedOut : Bool) :
    Leads r before (Http.doUpload a r.fileLength buffers canRead timedOut u) := by
  have hcheck : ∀ u' : Upload, Receiving r before u' → u'.responderState = .uploading →
      Leads r before (if r.fileLength ≤ u'.uploadedBytes then .finishing u' else .goesOn u') := by
    intro u' h' hstate'
    split
    · next hle => exact ⟨h', hle.trans h'.counted⟩
    · exact .inl ⟨h', hstate'⟩
  rw [Http.doUpload]
  dsimp only
  split
  · split
    · have hcancel := h.cancel (a := a)
      exact .inr ⟨⟨hcancel.report, hcancel.stored⟩, ResponderState.noConfusion⟩
    · exact hcheck u h hstate
  · obtain ⟨hgood, hbad⟩ := Http.takeBuffers_spec (a := a) 0 buffers h
    split
    · next u' htaken =>
      obtain ⟨hreport, path, hnamed⟩ := hbad u' htaken
      exact .inr (writeFailed_untouched hnamed hreport)
    · next u' htaken =>
      obtain ⟨h', hstate'⟩ := hgood u' htaken
      exact hcheck u' h' (hstate'.trans hstate)

lemma Ftp.doUpload_spec (h : Receiving r before u) (hstate : u.responderState = .uploading)
    (hlength : r.fileLength = 0) (buffers : List (List UInt8)) (canRead : Bool) :
    Leads r before (Ftp.doUpload a buffers canRead u) := by
  have hcheck : ∀ u' : Upload, Receiving r before u' → u'.responderState = .uploading →
      Leads r before (if canRead then .goesOn u' else .finishing u') := by
    intro u' h' hstate'
    split
    · exact .inl ⟨h', hstate'⟩
    · exact ⟨h', by rw [hlength]; exact Nat.zero_le _⟩
  cases buffers with
  | nil => exact hcheck u h hstate
  | cons buffer rest =>
    have hcounted : u.uploadedBytes ≤ (u.received ++ buffer).length := by
      have := h.counted
      rw [List.length_append]
      omega
    rcases h.file with hdummy | ⟨path, file, ht⟩
    · rw [Ftp.doUpload, hdummy.1]
      exact .inr ⟨⟨h.untouched.report, h.untouched.stored⟩, ResponderState.noConfusion⟩
    · rw [Ftp.doUpload, ht.live]
      dsimp only
      split
      · next file' hwrite =>
        apply Or.inr
        exact writeFailed_untouched ⟨ht.named, ht.name, ht.prepared, ht.stored⟩ h.untouched.report
      · next file' hwrite =>
        obtain ⟨hholds, hsame⟩ := FileStore.write_spec ht.holds hwrite
        apply hcheck
        · exact ⟨h.noError, h.noReport, hcounted, .inr ⟨path, file',
            ⟨ht.named, ht.name, ht.prepared, ht.stored⟩, rfl, hholds,
            hsame.allocated.trans_le ht.allocated, hsame.calcCrc.trans ht.calcCrc⟩⟩
        · exact hstate

lemma progress_spec (h : Receiving r before u) (hstate : u.responderState = .uploading) (e : Event)
    :
    Leads r before (progress a r u e) := by
  have hcancel := h.cancel (a := a)
  cases e with
  | data buffers canRead timedOut =>
    cases r with
    | http fileName postFileLength expectedCrc =>
      exact Http.doUpload_spec h hstate buffers canRead timedOut
    | ftp currentDirectory fileName => exact Ftp.doUpload_spec h hstate rfl buffers canRead
  | lost =>
    cases r with
    | http fileName postFileLength expectedCrc =>
      exact .inr ⟨⟨hcancel.report, hcancel.stored⟩, ResponderState.noConfusion⟩
    | ftp currentDirectory fileName =>
      exact .inr ⟨⟨h.untouched.report, h.untouched.stored⟩, ResponderState.noConfusion⟩
  | abort =>
    cases r with
    | http fileName postFileLength expectedCrc => exact .inl ⟨h, hstate⟩
    | ftp currentDirectory fileName =>
      exact .inr ⟨⟨hcancel.report, hcancel.stored⟩, ResponderState.noConfusion⟩

/-! ### The end of an upload -/

variable {crc32 : List UInt8 → UInt32}

/-- All that was received is flushed and is what was announced. A length of zero is not checked. -/
structure Complete (a : Answers) (crc32 : List UInt8 → UInt32) (r : Request) (file : FileStore.File)
    (received : List UInt8) : Prop where
  flushed : (FileStore.flush a.file file).1 = true
  length : r.fileLength = 0 ∨ received.length = r.fileLength
  crc : ∀ c, r.expectedCrc = some c → crc32 received = c

/-- What the temporary file holds once it is closed. -/
def landed (a : Answers) (u : Upload) : List UInt8 := a.file.close.getD u.received

def closedDrives (a : Answers) (u : Upload) : State :=
  place (resolve u.filenameBeingProcessed) (.file (landed a u)) u.drives

def requestedName (u : Upload) : List Char :=
  u.filenameBeingProcessed.take (u.filenameBeingProcessed.length - uploadExtension.length)

def Replaced (a : Answers) (u : Upload) : Prop :=
  Replaces a.disk a.rename (requestedName u) (closedDrives a u)

def Removed (a : Answers) (u : Upload) : Prop :=
  Removes a.disk a.rename (requestedName u) (closedDrives a u)

/-- Of an upload that is about to be finished: where all was received as announced, the temporary
file is closed without a loss and gets the requested name, and this can be reported. An upload that
comes to nothing does no harm where the file of that name was the same before. -/
def Sound (a : Answers) (crc32 : List UInt8 → UInt32) (r : Request) (u : Upload) : Prop :=
  match u.fileBeingUploaded with
  | none => a.canReport = true →
      requestedFile r u.drives = some u.received ∧ AsAnnounced crc32 r u.received
  | some file => Complete a crc32 r file u.received →
      if a.canReport then
        (∀ n, r.announcedLength = some n → u.received.length = n) ∧
          (Replaced a u ∧ landed a u = u.received ∨
            ¬ Replaced a u ∧ ¬ Removed a u ∧ requestedFile r u.drives = some u.received)
      else
        Replaced a u ∧ requestedFile r u.drives = some (landed a u) ∨
          ¬ Replaced a u ∧ (Removed a u → requestedFile r u.drives = none)

lemma checkUpload_iff (ht : Transfers r before path file u)
    (hlength : r.fileLength ≤ u.received.length) :
    (checkUpload a crc32 r.fileLength r.expectedCrc file).1 = false ↔
      Complete a crc32 r file u.received := by
  cases hflush : FileStore.flush a.file file with
  | mk ok file' =>
    rw [checkUpload, hflush]
    cases ok with
    | false =>
      constructor
      · exact fun hf => nomatch hf
      · intro hc
        have := hc.flushed
        rw [hflush] at this
        cases this
    | true =>
      obtain ⟨hholds, hsame, hcontents⟩ := FileStore.flush_spec ht.holds hflush
      have hempty : file'.writeBuffer.getD [] = [] := by
        have hbytes := hholds.bytes
        rwa [hcontents, List.append_right_eq_self] at hbytes
      have hsize : FileStore.length file' = u.received.length := by
        have hle := hsame.allocated.trans_le ht.allocated
        rw [FileStore.length, FileStore.size, hempty, hcontents, List.length_nil, add_zero]
        omega
      have hcrc : ∀ c, r.expectedCrc = some c → crc32 file'.crcData = crc32 u.received := by
        intro c hc
        have hcalc : file'.calcCrc = true := by rw [hsame.calcCrc, ht.calcCrc, hc]; rfl
        rw [hholds.crc hcalc, hcontents]
      dsimp only
      rw [hsize]
      constructor
      · intro hchecks
        simp only [Bool.or_eq_false_iff, Bool.and_eq_false_iff, decide_eq_false_iff_not,
          not_not] at hchecks
        refine ⟨by rw [hflush], hchecks.1.2, fun c hc => ?_⟩
        have hcrc' := hchecks.2
        rw [hc, Option.any_some, decide_eq_false_iff_not, not_not] at hcrc'
        rw [← hcrc c hc, hcrc']
      · intro hc
        simp only [Bool.or_eq_false_iff, Bool.and_eq_false_iff, decide_eq_false_iff_not, not_not]
        refine ⟨⟨rfl, hc.length⟩, ?_⟩
        cases hexpected : r.expectedCrc with
        | none => rfl
        | some c =>
          rw [Option.any_some, decide_eq_false_iff_not, not_not, hcrc c hexpected,
            hc.crc c hexpected]

lemma closeFile_check (ht : Transfers r before path file u)
    (hlength : r.fileLength ≤ u.received.length)
    (hc : Complete a crc32 r file u.received) :
    closeFile a (checkUpload a crc32 r.fileLength r.expectedCrc file).2 u = closedDrives a u := by
  cases hflush : FileStore.flush a.file file with
  | mk ok file' =>
    have hok := hc.flushed
    rw [hflush] at hok
    dsimp only at hok
    subst hok
    obtain ⟨hholds, hsame, hcontents⟩ := FileStore.flush_spec ht.holds hflush
    have hpad : file'.allocated - u.received.length = 0 := by
      have hle := hsame.allocated.trans_le ht.allocated
      omega
    rw [checkUpload, hflush, closeFile, FileStore.close_spec hholds hcontents, hpad]
    rw [List.replicate_zero, List.append_nil]
    rfl

lemma requestedName_eq (h : Named r before path u) : requestedName u = path := by
  rw [requestedName, h.name, List.length_append, Nat.add_sub_cancel]
  exact List.take_left

lemma respond_atomic {u' : Upload} (herror : u'.uploadError = false) :
    Atomic crc32 r before (respond a u') ↔
      if a.canReport then requestedFile r u'.drives = some u'.received ∧
        AsAnnounced crc32 r u'.received
      else requestedFile r u'.drives = requestedFile r before := by
  have hreport : (respond a u').report = some true ↔ a.canReport = true := by
    rw [respond, herror]
    split
    · next h => exact iff_of_true rfl h
    · next h => exact iff_of_false (fun hf => nomatch hf) h
  rw [Atomic]
  by_cases h : a.canReport = true
  · rw [if_pos h, if_pos (hreport.mpr h)]
    rfl
  · rw [if_neg h, if_neg fun hf => h (hreport.mp hf)]
    rfl

/-- What `Rename` makes of a complete upload. -/
lemma Transfers.renamed (ht : Transfers r before path file u) :
    let after := rename a.disk a.rename (path ++ uploadExtension) path true true (closedDrives a u)
    (Replaced a u ∧ fileAt path after.2 = some (landed a u)) ∨
      (¬ Replaced a u ∧ Removed a u ∧ fileAt path after.2 = none) ∨
      (¬ Replaced a u ∧ ¬ Removed a u ∧ fileAt path after.2 = fileAt path u.drives) := by
  intro after
  have hprepared : Prepared path (landed a u) (closedDrives a u) := by
    rw [closedDrives, ht.name]
    exact ht.prepared.place
  have hspec := rename_spec a.disk a.rename hprepared.beside hprepared.temp hprepared.tidy
  rw [Replaced, Removed, requestedName_eq ht.toNamed]
  cases hok : after.1 with
  | true =>
    refine .inl ⟨hspec.iff.mp hok, ?_⟩
    rw [fileAt, shapeAt_file.mpr (hspec.replaced hok)]
    rfl
  | false =>
    have hnot : ¬ Replaces a.disk a.rename path (closedDrives a u) := by
      intro hrep
      exact Bool.false_ne_true (hok.symm.trans (hspec.iff.mpr hrep))
    by_cases hrem : Removes a.disk a.rename path (closedDrives a u)
    · refine .inr (.inl ⟨hnot, hrem, ?_⟩)
      rw [fileAt, shapeAt_none.mpr (hspec.removed hok hrem)]
      rfl
    · refine .inr (.inr ⟨hnot, hrem, ?_⟩)
      rw [fileAt, hspec.kept hok hrem, ← fileAt, closedDrives, ht.name, fileAt_place]

lemma finish_failed (ht : Transfers r before path file u)
    (hlength : r.fileLength ≤ u.received.length) (hc : ¬ Complete a crc32 r file u.received) :
    Atomic crc32 r before (respond a (finishUpload a crc32 r.fileLength r.expectedCrc u)) := by
  have hfailed : (checkUpload a crc32 r.fileLength r.expectedCrc file).1 = true := by
    rw [← Bool.not_eq_false]
    exact fun hf => hc ((checkUpload_iff ht hlength).mp hf)
  have hname : u.filenameBeingProcessed ≠ [] := by
    rw [ht.name]
    exact List.append_ne_nil_of_right_ne_nil _ (by decide)
  rw [finishUpload, ht.live]
  dsimp only
  rw [hfailed, Bool.or_true, if_neg hname, if_pos rfl, Atomic, if_neg]
  · rw [requestedFile_eq ht.named, requestedFile_eq ht.named]
    change fileAt path (deleteUpload a _ u.filenameBeingProcessed _) = _
    rw [ht.name, fileAt_delete, fileAt_closeFile ht.toNamed]
  · rw [respond]
    split
    · exact fun hf => nomatch hf
    · exact fun hf => nomatch hf

lemma finish_complete (ht : Transfers r before path file u) (herror : u.uploadError = false)
    (hlength : r.fileLength ≤ u.received.length) (hc : Complete a crc32 r file u.received) :
    Atomic crc32 r before (respond a (finishUpload a crc32 r.fileLength r.expectedCrc u)) ↔
      Sound a crc32 r u := by
  have hpassed := (checkUpload_iff ht hlength).mpr hc
  have hname : u.filenameBeingProcessed ≠ [] := by
    rw [ht.name]
    exact List.append_ne_nil_of_right_ne_nil _ (by decide)
  have hdrives : (finishUpload a crc32 r.fileLength r.expectedCrc u).drives =
      (rename a.disk a.rename (path ++ uploadExtension) path true true (closedDrives a u)).2 := by
    rw [finishUpload, ht.live]
    dsimp only
    rw [hpassed, herror, Bool.or_false, if_neg hname, if_neg Bool.false_ne_true,
      closeFile_check ht hlength hc, ← requestedName, requestedName_eq ht.toNamed, ht.name]
  have herror' : (finishUpload a crc32 r.fileLength r.expectedCrc u).uploadError = false := by
    rw [finishUpload, ht.live]
    dsimp only
    rw [hpassed, herror, Bool.or_false]
  have hreceived : (finishUpload a crc32 r.fileLength r.expectedCrc u).received = u.received := by
    rw [finishUpload, ht.live]
  have hannounced : AsAnnounced crc32 r u.received ↔
      ∀ n, r.announcedLength = some n → u.received.length = n :=
    ⟨fun h => h.length, fun h => ⟨h, hc.crc⟩⟩
  rw [respond_atomic herror', hdrives, hreceived, Sound, ht.live]
  dsimp only
  rw [requestedFile_eq ht.named, requestedFile_eq ht.named, requestedFile_eq ht.named, hannounced,
    ← ht.stored]
  have hcases := ht.renamed (a := a)
  constructor
  · intro hatomic _
    split
    · next hreport =>
      rw [if_pos hreport] at hatomic
      refine ⟨hatomic.2, ?_⟩
      rcases hcases with ⟨hrep, hfile⟩ | ⟨hnot, hrem, hfile⟩ | ⟨hnot, hnrem, hfile⟩
      · exact .inl ⟨hrep, Option.some.inj (hfile.symm.trans hatomic.1)⟩
      · exact nomatch hfile.symm.trans hatomic.1
      · exact .inr ⟨hnot, hnrem, hfile.symm.trans hatomic.1⟩
    · next hreport =>
      rw [if_neg hreport] at hatomic
      rcases hcases with ⟨hrep, hfile⟩ | ⟨hnot, hrem, hfile⟩ | ⟨hnot, hnrem, hfile⟩
      · exact .inl ⟨hrep, hatomic.symm.trans hfile⟩
      · exact .inr ⟨hnot, fun _ => hatomic.symm.trans hfile⟩
      · exact .inr ⟨hnot, fun hrem => absurd hrem hnrem⟩
  · intro hsound
    have hsound := hsound hc
    split
    · next hreport =>
      rw [if_pos hreport] at hsound
      refine ⟨?_, hsound.1⟩
      rcases hcases with ⟨hrep, hfile⟩ | ⟨hnot, hrem, hfile⟩ | ⟨hnot, hnrem, hfile⟩
      · rcases hsound.2 with ⟨-, hlanded⟩ | ⟨hnot, -⟩
        · rw [hfile, hlanded]
        · exact absurd hrep hnot
      · rcases hsound.2 with ⟨hrep, -⟩ | ⟨-, hnrem, -⟩
        · exact absurd hrep hnot
        · exact absurd hrem hnrem
      · rcases hsound.2 with ⟨hrep, -⟩ | ⟨-, -, hsame⟩
        · exact absurd hrep hnot
        · exact hfile.trans hsame
    · next hreport =>
      rw [if_neg hreport] at hsound
      rcases hcases with ⟨hrep, hfile⟩ | ⟨hnot, hrem, hfile⟩ | ⟨hnot, hnrem, hfile⟩
      · rcases hsound with ⟨-, hsame⟩ | ⟨hnot, -⟩
        · exact hfile.trans hsame.symm
        · exact absurd hrep hnot
      · rcases hsound with ⟨hrep, -⟩ | ⟨-, hgone⟩
        · exact absurd hrep hnot
        · exact hfile.trans (hgone hrem).symm
      · exact hfile

lemma finish_spec (h : Receiving r before u) (hlength : r.fileLength ≤ u.received.length) :
    Atomic crc32 r before (respond a (finishUpload a crc32 r.fileLength r.expectedCrc u)) ↔
      Sound a crc32 r u := by
  rcases h.file with ⟨hnone, hsame⟩ | ⟨path, file, ht⟩
  · have hfinish : finishUpload a crc32 r.fileLength r.expectedCrc u = u := by
      rw [finishUpload, hnone]
    rw [hfinish, respond_atomic h.noError, Sound, hnone]
    dsimp only
    split
    · next hreport => exact ⟨fun hs _ => hs, fun hs => hs hreport⟩
    · next hreport => exact ⟨fun _ hs => absurd hs hreport, fun _ => hsame⟩
  · by_cases hc : Complete a crc32 r file u.received
    · exact finish_complete ht h.noError hlength hc
    · refine iff_of_true (finish_failed ht hlength hc) ?_
      rw [Sound, ht.live]
      exact fun hc' => absurd hc' hc

/-! ### Runs -/

/-- The step does not finish an upload, or finishes it soundly. -/
def FinishesSoundly (a : Answers) (crc32 : List UInt8 → UInt32) (r : Request) (u : Upload)
    (e : Event) : Prop :=
  u.responderState = .uploading → ∀ u', progress a r u e = .finishing u' → Sound a crc32 r u'

def Goes (r : Request) (before : State) (u : Upload) : Prop :=
  u.responderState = .uploading → Receiving r before u

lemma Untouched.atomic (h : Untouched r before u) : Atomic crc32 r before u := by
  rw [Atomic, if_neg h.report]
  exact h.stored

lemma Goes.afterStep (h : Goes r before u) (e : Event) : Goes r before (step a crc32 r u e) := by
  rw [step]
  split
  · next hstate =>
    have hlead := progress_spec (a := a) (h hstate) hstate e
    split
    · next u' hgo =>
      rw [hgo] at hlead
      rcases hlead with ⟨hr, -⟩ | ⟨-, hover⟩
      · exact fun _ => hr
      · exact fun hf => absurd hf hover
    · exact fun hf => nomatch hf
  · exact h

lemma Goes.step_iff (h : Goes r before u) (hatomic : Atomic crc32 r before u) (e : Event) :
    Atomic crc32 r before (step a crc32 r u e) ↔ FinishesSoundly a crc32 r u e := by
  rw [step, FinishesSoundly]
  split
  · next hstate =>
    have hlead := progress_spec (a := a) (h hstate) hstate e
    split
    · next u' hgo =>
      rw [hgo] at hlead
      refine iff_of_true ?_ fun _ u'' hf => nomatch hgo.symm.trans hf
      rcases hlead with ⟨hr, -⟩ | ⟨huntouched, -⟩
      · exact hr.untouched.atomic
      · exact huntouched.atomic
    · next u' hfinish =>
      rw [hfinish] at hlead
      rw [finish_spec hlead.1 hlead.2]
      constructor
      · rintro hsound _ u'' hf
        cases hfinish.symm.trans hf
        exact hsound
      · exact fun hs => hs hstate u' hfinish
  · next hstate => exact iff_of_true hatomic fun hf => absurd hf hstate

lemma tidy_of_names {ns : List Name} {es : Entries Name (List UInt8)}
    (h : ∀ ds, lookup nameKey ns es = some (.dir ds) → (ds.map fun e => nameKey e.1).Nodup) :
    Tidy nameKey ns es := by
  induction ns generalizing es with
  | nil => exact h es rfl
  | cons n ns ih =>
    intro ds hds
    apply ih
    intro xs hxs
    apply h
    rw [lookup_cons_dir hds, hxs]

lemma Volume.tidy (v : Volume) (hroot : isRoot path = false) :
    Tidy nameKey (resolve path).dropLast v.root := by
  have hcons : ∃ n ns, (resolve path).dropLast = n :: ns := by
    have hne : components (splitDrive path).2 ≠ [] := by
      intro hnil
      have hflat := flatten_components (splitDrive path).2
      rw [hnil, List.flatten_nil, eq_comm, List.filter_eq_nil_iff] at hflat
      rw [isRoot, List.isEmpty_eq_false_iff, ne_eq, List.dropWhile_eq_nil_iff] at hroot
      apply hroot
      intro c hc
      simpa using hflat c hc
    obtain ⟨m, ms, hms⟩ := List.exists_cons_of_ne_nil hne
    rw [resolve, hms]
    exact ⟨_, _, rfl⟩
  obtain ⟨n, ns, hns⟩ := hcons
  rw [hns]
  apply tidy_of_names
  intro ds hds
  exact (v.valid n ns ds hds).distinct

lemma startUpload_spec (a : Answers) (r : Request) (v : Volume) :
    Goes r ⟨v.root, 0, []⟩ (startUpload a r ⟨v.root, 0, []⟩) ∧
      Untouched r ⟨v.root, 0, []⟩ (startUpload a r ⟨v.root, 0, []⟩) := by
  have hrejected : ∀ s : State, requestedFile r s = requestedFile r ⟨v.root, 0, []⟩ →
      Goes r ⟨v.root, 0, []⟩ (rejected s) ∧ Untouched r ⟨v.root, 0, []⟩ (rejected s) := by
    intro s hs
    exact ⟨fun hf => (nomatch hf), fun hf => (nomatch hf), hs⟩
  rw [startUpload]
  split
  · have hr : Receiving r ⟨v.root, 0, []⟩ (started none [] ⟨v.root, 0, []⟩) :=
      ⟨rfl, rfl, le_rfl, .inl ⟨rfl, rfl⟩⟩
    exact ⟨fun _ => hr, hr.untouched⟩
  · split
    · exact hrejected _ rfl
    · next path hname =>
      split
      · exact hrejected _ rfl
      · next hfits =>
        have hagain := combineName_again r hname (not_lt.mp hfits)
        split
        · next s hopen =>
          obtain ⟨hstored, -⟩ := openFile_spec hagain (Volume.tidy v) hopen
          apply hrejected
          rw [requestedFile_eq hname, requestedFile_eq hname, hstored]
        · next file s hopen =>
          obtain ⟨hstored, hfile⟩ := openFile_spec hagain (Volume.tidy v) hopen
          obtain ⟨hprepared, hholds, hallocated, hcrc⟩ := hfile file rfl
          have hr : Receiving r ⟨v.root, 0, []⟩
              (started (some file) (path ++ uploadExtension) s) :=
            ⟨rfl, rfl, le_rfl, .inr ⟨path, file, ⟨hname, rfl, hprepared, hstored⟩, rfl, hholds,
              hallocated, hcrc⟩⟩
          exact ⟨fun _ => hr, hr.untouched⟩

/-- Uploads are atomic in every run, up to the point where one is finished that is not sound. -/
theorem upload_atomic (a : Answers) (crc32 : List UInt8 → UInt32) (r : Request) (v : Volume)
    (es : List Event) :
    Always (step a crc32 r) (Atomic crc32 r ⟨v.root, 0, []⟩)
        (startUpload a r ⟨v.root, 0, []⟩) es ↔
      Along (step a crc32 r) (FinishesSoundly a crc32 r) (startUpload a r ⟨v.root, 0, []⟩) es := by
  obtain ⟨hgoes, huntouched⟩ := startUpload_spec a r v
  exact always_iff_along hgoes (fun u e h => h.afterStep e) huntouched.atomic
    (fun u e h hatomic => h.step_iff hatomic e) es

/-- A drive with one file. -/
def printedVolume : Volume where
  root := [(['0', ':'], .dir [(['a'], .file [1])])]
  valid := by
    intro n ns es h
    have hrest := lookup_only h
    cases ns with
    | nil =>
      cases hrest
      refine ⟨?_, by decide⟩
      intro e he
      rw [List.mem_singleton.mp he]
      exact ⟨by decide, by decide, by decide⟩
    | cons m ms =>
      rw [lookup] at hrest
      by_cases hm : nameKey ['a'] = nameKey m
      · rw [find_cons, if_pos hm] at hrest
        dsimp only at hrest
        split at hrest
        · cases hrest
        · cases hrest
      · rw [find_cons, if_neg hm] at hrest
        cases hrest

/-- Every call works, and the stored file is open, as it is while it is being printed. -/
def whilePrinting : Answers where
  folders := ⟨fun _ => false, fun _ => false⟩
  openFails := false
  expands := true
  haveWriteBuffer := false
  file := ⟨fun _ => .done, fun _ => false, none⟩
  disk := ⟨fun ns => ns = [['0', ':'], ['a']], fun _ => false⟩
  rename := ⟨false, false, ⟨fun _ => false, fun _ => false⟩, false, false, false⟩
  canReport := true

/-- The stored file is uploaded again, with other contents. -/
def newContents : Request := .http ['a'] 1 none

def uploadedAgain : Upload :=
  run (step whilePrinting (fun _ => 0) newContents)
    (startUpload whilePrinting newContents ⟨printedVolume.root, 0, []⟩) [.data [[2]] true false]

theorem upload_while_printing : ¬ ∀ (a : Answers) (crc32 : List UInt8 → UInt32) (r : Request)
    (v : Volume) (es : List Event), Always (step a crc32 r) (Atomic crc32 r ⟨v.root, 0, []⟩)
      (startUpload a r ⟨v.root, 0, []⟩) es := by
  intro h
  have hatomic : Atomic (fun _ => 0) newContents ⟨printedVolume.root, 0, []⟩ uploadedAgain :=
    h whilePrinting (fun _ => 0) newContents printedVolume [.data [[2]] true false] _
      List.prefix_rfl
  have hreport : uploadedAgain.report = some true := by decide +kernel
  have hstored : requestedFile newContents uploadedAgain.drives = some [1] := by decide +kernel
  have hreceived : uploadedAgain.received = [2] := by decide +kernel
  rw [Atomic, if_pos hreport, hstored, hreceived] at hatomic
  exact absurd hatomic.1 (by decide)

end RepRapFirmware.Networking.UploadingNetworkResponder
