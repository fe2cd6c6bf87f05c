import Mathlib
import RepRapFirmware.Platform.FileLists

/-! Following the pages of a directory listing from the first one on, as a client does. -/

namespace RepRapFirmware.Platform

open Library.Json

variable {board : Board} {f : FileInfo} {fs : List FileInfo} {q : Request} {s t : List Char} {n : ℕ}

/-! ### Responses are JSON -/

lemma spells_putJsonChar (c : Char) (h : Spells s t) :
    Spells (printable c :: s) (putJsonChar c ++ t) := by
  by_cases hr : c = '\r'
  · subst hr
    exact h.escape (by decide) rfl
  by_cases hn : c = '\n'
  · subst hn
    exact h.escape (by decide) rfl
  by_cases ht : c = '\t'
  · subst ht
    exact h.escape (by decide) rfl
  by_cases hq : c = '"' ∨ c = '\\'
  · rcases hq with rfl | rfl
    · exact h.escape (by decide) rfl
    · exact h.escape (by decide) rfl
  rw [printable, putJsonChar, if_neg hr, if_neg hn, if_neg ht, if_neg hq]
  by_cases hc : c < ' '
  · rw [if_pos ⟨hc, hr, hn, ht⟩, if_pos hc]
    exact h.plain (by decide) (by decide) (by decide)
  · rw [if_neg (fun h => hc h.1), if_neg hc]
    exact h.plain (fun h => hq (.inl h)) (fun h => hq (.inr h)) hc

lemma spells_putJson (s : List Char) : Spells (s.map printable) (putJson s) := by
  induction s with
  | nil => exact spells_nil
  | cons c s ih => exact spells_putJsonChar c ih

/-- Characters that stand for themselves in a string. -/
def Plain (s : List Char) : Prop := ∀ c ∈ s, c ≠ '"' ∧ c ≠ '\\' ∧ ¬ c < ' '

instance : Decidable (Plain s) :=
  List.decidableBAll (fun c => c ≠ '"' ∧ c ≠ '\\' ∧ ¬ c < ' ') s

lemma Plain.spells (h : Plain s) : Spells s s := by
  induction s with
  | nil => exact spells_nil
  | cons c s ih =>
    obtain ⟨hq, hb, hc⟩ := h c List.mem_cons_self
    exact (ih fun d hd => h d (List.mem_cons_of_mem c hd)).plain hq hb hc

lemma reads_decimal (n : ℕ) : Reads (.num (decimal n)) (decimal n) :=
  Signed.reads (.inl (integral_toDigits n))

lemma reads_signedDecimal (n : ℤ) : Reads (.num (signedDecimal n)) (signedDecimal n) := by
  rw [signedDecimal]
  split
  · exact Signed.reads (.inr ⟨_, rfl, integral_toDigits _⟩)
  · exact Signed.reads (.inl (integral_toDigits _))

lemma plain_decimal (n : ℕ) : Plain (decimal n) := by
  intro c hc
  have hdigit := Nat.isDigit_of_mem_toDigits (by decide) (by decide) hc
  have hle : '0' ≤ c := by
    simp only [Char.isDigit, Bool.and_eq_true, decide_eq_true_eq] at hdigit
    exact hdigit.1
  refine ⟨?_, ?_, ?_⟩
  · rintro rfl
    cases hdigit
  · rintro rfl
    cases hdigit
  · exact UInt32.not_lt.mpr (UInt32.le_trans (by decide) hle)

lemma Plain.append (hs : Plain s) (ht : Plain t) : Plain (s ++ t) := by
  intro c hc
  rcases List.mem_append.mp hc with hc | hc
  · exact hs c hc
  · exact ht c hc

lemma plain_padded (w n : ℕ) : Plain (padded w n) := by
  apply Plain.append _ (plain_decimal n)
  intro c hc
  rw [List.eq_of_mem_replicate hc]
  decide

lemma plain_dateText (t : Tm) : Plain (dateText t) := by
  have hcons : ∀ {c : Char} {s : List Char}, (c ≠ '"' ∧ c ≠ '\\' ∧ ¬ c < ' ') → Plain s → Plain (c
    :: s) :=
    fun hc hs => Plain.append (s := [_]) (fun d hd => List.mem_singleton.mp hd ▸ hc) hs
  simp only [dateText, List.append_assoc, List.cons_append]
  exact (plain_padded 4 _).append (hcons (by decide) ((plain_padded 2 _).append (hcons (by decide)
    ((plain_padded 2 _).append (hcons (by decide) ((plain_padded 2 _).append (hcons (by decide)
      ((plain_padded 2 _).append (hcons (by decide) (plain_padded 2 _))))))))))

/-- What an entry of the list with sizes and dates stands for. -/
def fileValue (f : FileInfo) : Value :=
  .obj ([("type".toList, .str [typeChar f]), ("name".toList, .str (f.fileName.map printable)),
    ("size".toList, .num (decimal f.size))] ++
      if f.lastModified.tm_year ≤ 80 then [] else [("date".toList, .str (dateText f.lastModified))])

/-- What an entry of the list of names stands for. -/
def nameValue (flagsDirs : Bool) (f : FileInfo) : Value :=
  .str ((if flagsDirs && f.isDirectory then ['*'] else []) ++ f.fileName.map printable)

/-- The text of an entry, member by member. -/
lemma entryText_filelist (f : FileInfo) : entryText filelist f =
    '{' :: (member "type".toList ['"', typeChar f, '"'] ++ ',' ::
      (member "name".toList ('"' :: putJson f.fileName ++ ['"']) ++ ',' ::
        if f.lastModified.tm_year ≤ 80 then member "size".toList (decimal f.size)
        else member "size".toList (decimal f.size) ++ ',' ::
          member "date".toList ('"' :: dateText f.lastModified ++ ['"']))) ++ ['}'] := by
  have htype : "\x7b\"type\":\"".toList = '{' :: '"' :: "type".toList ++ ['"', ':', '"'] := rfl
  have hname : "\",\"name\":\"".toList = '"' :: ',' :: '"' :: "name".toList ++ ['"', ':', '"'] :=
    rfl
  have hsize : "\",\"size\":".toList = '"' :: ',' :: '"' :: "size".toList ++ ['"', ':'] := rfl
  have hdate : ",\"date\":\"".toList = ',' :: '"' :: "date".toList ++ ['"', ':', '"'] := rfl
  have hend : "\"\x7d".toList = ['"', '}'] := rfl
  simp only [entryText, filelist, member, htype, hname, hsize, hdate, hend]
  generalize "type".toList = k₁
  generalize "name".toList = k₂
  generalize "size".toList = k₃
  generalize "date".toList = k₄
  split <;> simp

lemma spells_key {k : List Char}
    (hk : k ∈ ["type", "name", "size", "date", "line", "dir", "first", "files", "next", "err"].map
      String.toList) : Spells k k := by
  apply Plain.spells
  fin_cases hk <;> decide

lemma reads_fileValue (f : FileInfo) : Reads (fileValue f) (entryText filelist f) := by
  have htype : Reads (.str [typeChar f]) ['"', typeChar f, '"'] := by
    apply Spells.reads (t := [typeChar f])
    apply Plain.spells
    intro c hc
    rw [List.mem_singleton.mp hc, typeChar]
    split <;> decide
  have hname := (spells_putJson f.fileName).reads
  have hsize := reads_decimal f.size
  have hdate := (plain_dateText f.lastModified).spells.reads
  rw [entryText_filelist, fileValue]
  apply ReadsMembers.reads
  apply htype.cons_member (spells_key (by decide))
  apply hname.cons_member (spells_key (by decide))
  split
  · exact hsize.member (spells_key (by decide))
  · exact hsize.cons_member (spells_key (by decide)) (hdate.member (spells_key (by decide)))

lemma reads_nameValue (flagsDirs : Bool) (f : FileInfo) :
    Reads (nameValue flagsDirs f) (entryText (files flagsDirs) f) := by
  have hname := spells_putJson f.fileName
  rw [nameValue, entryText, files]
  by_cases hstar : (flagsDirs && f.isDirectory) = true
  · convert (hname.plain (c := '*') (by decide) (by decide) (by decide)).reads using 1
    · simp [hstar]
    · simp [hstar]
  · convert hname.reads using 1
    · simp [hstar]
    · simp [hstar]

inductive ListKind
  | filelist
  | files (flagsDirs : Bool)

namespace ListKind

def listing : ListKind → Listing
  | filelist => Platform.filelist
  | files flagsDirs => Platform.files flagsDirs

def respond (board : Board) : ListKind → Request → Option (List Char)
  | filelist => getFilelistResponse board
  | files flagsDirs => getFilesResponse board flagsDirs

def value : ListKind → FileInfo → Value
  | filelist => fileValue
  | files flagsDirs => nameValue flagsDirs

/-- The members behind `next`. -/
def ending : ListKind → List (List Char × Value)
  | filelist => []
  | files _ => [("err".toList, .num ['0'])]

lemma reads_value (kind : ListKind) (f : FileInfo) :
    Reads (kind.value f) (entryText kind.listing f) := by
  cases kind with
  | filelist => exact reads_fileValue f
  | files flagsDirs => exact reads_nameValue flagsDirs f

end ListKind

lemma pageText_succ (l : Listing) (n : ℕ) (fs : List FileInfo) :
    pageText l (n + 1) fs = (fs.map fun f => ',' :: entryText l f).flatten := by
  induction fs generalizing n with
  | nil => rfl
  | cons f fs ih => rw [pageText, ih, separator, if_neg (Nat.succ_ne_zero n)]; rfl

lemma reads_page (kind : ListKind) (fs : List FileInfo) :
    Reads (.arr (fs.map kind.value)) ('[' :: pageText kind.listing 0 fs ++ [']']) := by
  cases fs with
  | nil => exact reads_arr_nil
  | cons f fs =>
    apply ReadsAll.reads
    rw [pageText, pageText_succ, separator, if_pos rfl]
    exact readsAll_intercalate kind.reads_value f fs

/-- The members of a response from `next` on. -/
lemma reads_ending (kind : ListKind) (next : ℕ) : ∃ t,
    kind.listing.closing next = ']' :: ',' :: t ++ ['}', '\n'] ∧
      ReadsMembers (("next".toList, .num (decimal next)) :: kind.ending) t := by
  have hnext := reads_decimal next
  have hkey : "],\"next\":".toList = ']' :: ',' :: '"' :: "next".toList ++ ['"', ':'] := rfl
  cases kind with
  | filelist =>
    refine ⟨_, ?_, hnext.member (spells_key (by decide))⟩
    simp only [ListKind.listing, filelist, member, hkey]
    generalize "next".toList = k
    simp
  | files flagsDirs =>
    have hzero : Reads (.num ['0']) ['0'] := reads_decimal 0
    refine ⟨_, ?_, hnext.cons_member (spells_key (by decide))
      (hzero.member (spells_key (by decide)))⟩
    have herr : ",\"err\":0\x7d\n".toList = ',' :: '"' :: "err".toList ++ ['"', ':', '0', '}',
      '\n'] := rfl
    simp only [ListKind.listing, files, member, hkey, herr]
    generalize "next".toList = k₁
    generalize "err".toList = k₂
    simp

def lineMembers : Option ℤ → List (List Char × Value)
  | some n => [("line".toList, .num (signedDecimal n))]
  | none => []

/-- What a response stands for. -/
def responseValue (kind : ListKind) (q : Request) (page : List FileInfo) (next : ℕ) : Value :=
  .obj (lineMembers q.line ++ ("dir".toList, .str (q.dir.map printable)) ::
    ("first".toList, .num (decimal q.startAt)) :: ("files".toList, .arr (page.map kind.value)) ::
      ("next".toList, .num (decimal next)) :: kind.ending)

lemma parse_response (kind : ListKind) (q : Request) (page : List FileInfo) (next : ℕ) :
    parse ((header q.line q.dir q.startAt).flatten ++ pageText kind.listing 0 page ++
      kind.listing.closing next) = some (responseValue kind q page next) := by
  obtain ⟨t, htext, hending⟩ := reads_ending kind next
  have hrest := ((spells_putJson q.dir).reads).cons_member
    (spells_key (k := "dir".toList) (by decide)) ((reads_decimal q.startAt).cons_member
      (spells_key (k := "first".toList) (by decide)) ((reads_page kind page).cons_member
        (spells_key (k := "files".toList) (by decide)) hending))
  have hbody : "\"dir\":\"".toList = '"' :: "dir".toList ++ ['"', ':', '"'] := rfl
  have hfirst : "\",\"first\":".toList = '"' :: ',' :: '"' :: "first".toList ++ ['"', ':'] := rfl
  have hfiles : ",\"files\":[".toList = ',' :: '"' :: "files".toList ++ ['"', ':', '['] := rfl
  have hline : "\"line\":".toList = '"' :: "line".toList ++ ['"', ':'] := rfl
  rw [htext]
  cases hq : q.line with
  | none =>
    have hparse := hrest.reads.parse (r := ['\n']) (List.forall_mem_singleton.mpr rfl)
    rw [responseValue, hq, lineMembers, List.nil_append, ← hparse]
    simp only [header, member, hbody, hfirst, hfiles]
    generalize "dir".toList = k₁
    generalize "first".toList = k₂
    generalize "files".toList = k₃
    simp
  | some n =>
    have hmembers := (reads_signedDecimal n).cons_member (spells_key (k := "line".toList)
      (by decide)) hrest
    have hparse := hmembers.reads.parse (r := ['\n']) (List.forall_mem_singleton.mpr rfl)
    rw [responseValue, hq, lineMembers, List.singleton_append, ← hparse]
    simp only [header, member, hbody, hfirst, hfiles, hline]
    generalize "dir".toList = k₁
    generalize "first".toList = k₂
    generalize "files".toList = k₃
    generalize "line".toList = k₄
    simp

/-! ### The client -/

/-- The entries of a page and the start of the next one, as a response gives them. -/
def readPage (t : List Char) : Option (List Value × ℕ) :=
  match parse t with
  | some (.obj ms) =>
    match ms.lookup "files".toList, ms.lookup "next".toList with
    | some (.arr vs), some (.num n) => some (vs, Nat.ofDigitChars 10 n 0)
    | _, _ => none
  | _ => none

/-- Following `next` until it is zero. The responses depend on the number of the call and on where
the page starts. -/
def follow (respond : ℕ → ℕ → Option (List Char)) : ℕ → ℕ → ℕ → Option (List Value)
  | 0, _, _ => none
  | fuel + 1, k, startAt =>
    match (respond k startAt).bind readPage with
    | none => none
    | some (vs, next) =>
      if next = 0 then some vs
      else (follow respond fuel (k + 1) next).map (vs ++ ·)

/-- The calls that are made. -/
inductive Asked (respond : ℕ → ℕ → Option (List Char)) : ℕ → ℕ → Prop
  | first : Asked respond 0 0
  | next {k startAt next : ℕ} {vs : List Value} (h : Asked respond k startAt)
      (hpage : (respond k startAt).bind readPage = some (vs, next)) (hnext : next ≠ 0) :
      Asked respond (k + 1) next

lemma readPage_response (kind : ListKind) (q : Request) (page : List FileInfo) (next : ℕ) :
    readPage ((header q.line q.dir q.startAt).flatten ++ pageText kind.listing 0 page ++
      kind.listing.closing next) = some (page.map kind.value, next) := by
  have hnumber : Nat.ofDigitChars 10 (decimal next) 0 = next := Nat.ofDigitChars_ten_toDigits
  rw [readPage, parse_response, responseValue]
  cases q.line with
  | none => simp [lineMembers, List.lookup, hnumber]
  | some n => simp [lineMembers, List.lookup, hnumber]

lemma takePage_prefix (l : Listing) (maxItems : ℤ) (n bytes : ℕ) (fs : List FileInfo) :
    takePage l maxItems n bytes fs <+: fs := by
  induction fs generalizing n bytes with
  | nil => exact List.prefix_rfl
  | cons f fs ih =>
    rw [takePage]
    split
    · exact List.nil_prefix
    · exact List.cons_prefix_cons.mpr ⟨rfl, ih _ _⟩

/-- The first entry always comes on its page. -/
lemma takePage_first (kind : ListKind) {maxItems : ℤ} {bytes : ℕ} (hbytes : 512 ≤ bytes) (f
    : FileInfo)
    (fs : List FileInfo) : takePage kind.listing maxItems 0 bytes (f :: fs) ≠ [] := by
  have hlength : f.fileName.length ≤ 120 := f.length_le
  have hroom : kind.listing.room f ≤ 512 := by
    cases kind with
    | filelist =>
      change f.fileName.length * 2 + 50 ≤ 512
      omega
    | files flagsDirs =>
      change f.fileName.length * 2 + 20 ≤ 512
      omega
  rw [takePage, if_neg (by omega)]
  exact List.cons_ne_nil _ _

section Client

variable {respond : ℕ → ℕ → Option (List Char)} {fuel k startAt : ℕ} {vs : List Value}

lemma answered_of_follow (h : follow respond fuel k startAt = some vs) :
    respond k startAt ≠ none := by
  intro hnone
  cases fuel with
  | zero => cases h
  | succ fuel => simp [follow, hnone] at h

lemma Asked.followed (h : follow respond fuel 0 0 = some vs) (hasked : Asked respond k startAt) :
    ∃ fuel vs, follow respond fuel k startAt = some vs := by
  induction hasked with
  | first => exact ⟨fuel, vs, h⟩
  | next _ hpage hnext ih =>
    obtain ⟨fuel, vs, hfollow⟩ := ih
    cases fuel with
    | zero => cases hfollow
    | succ fuel =>
      rw [follow, hpage] at hfollow
      simp only [if_neg hnext, Option.map_eq_some_iff] at hfollow
      obtain ⟨ws, hws, -⟩ := hfollow
      exact ⟨fuel, ws, hws⟩

end Client

/-- A client that lists a directory, with the line numbers of its requests and the output buffers
that
are free at each of them. -/
structure Client where
  board : Board
  kind : ListKind
  dir : List Char
  directory : Directory
  maxItems : ℤ
  line : ℕ → Option ℤ
  freeBuffers : ℕ → ℕ

namespace Client

variable (c : Client)

def request (k startAt : ℕ) : Request :=
  ⟨c.line k, c.dir, c.directory, startAt, c.maxItems, c.freeBuffers k⟩

def respond (k startAt : ℕ) : Option (List Char) := c.kind.respond c.board (c.request k startAt)

def Fits (k startAt : ℕ) : Prop := PageFits c.board c.kind.listing (c.request k startAt)

def bytes (k startAt : ℕ) : ℕ := bytesAtStart c.board (c.request k startAt)

/-- All entries that are not hidden, in order. -/
def expected : List Value := c.directory.visible.map c.kind.value

variable {c} {k s : ℕ}

lemma respond_eq (hmounted : c.directory.mounted = true) (hthere : c.directory.there = true)
    (hbytes : 512 ≤ c.bytes k s) :
    (¬ c.Fits k s → c.respond k s = none) ∧
      (c.Fits k s → (c.respond k s).bind readPage =
        some (((c.request k s).page c.board c.kind.listing).map c.kind.value,
          nextStart s ((c.request k s).page c.board c.kind.listing) (c.request k s).rest)) := by
  have hkind : c.respond k s = listResponse c.board c.kind.listing (c.request k s) := by
    rw [respond]
    cases c.kind <;> rfl
  have hpos : 0 < bytesAtStart c.board (c.request k s) := Nat.lt_of_lt_of_le (by decide) hbytes
  obtain ⟨hnone, hsome⟩ := listResponse_eq c.kind.listing (q := c.request k s) hmounted hthere hpos
  rw [hkind]
  refine ⟨hnone, fun hfits => ?_⟩
  rw [hsome hfits, Option.bind_some, readPage_response]
  rfl

/-- From any page that is asked for, the client gets the rest of the directory. -/
lemma follow_rest (hmounted : c.directory.mounted = true) (hthere : c.directory.there = true)
    (hbytes : ∀ k s, Asked c.respond k s → 512 ≤ c.bytes k s)
    (hfits : ∀ k s, Asked c.respond k s → c.Fits k s) (m k s : ℕ)
    (hm : (c.directory.visible.drop s).length = m) (hasked : Asked c.respond k s) :
    ∃ fuel, follow c.respond fuel k s = some ((c.directory.visible.drop s).map c.kind.value) := by
  induction m using Nat.strong_induction_on generalizing k s with
  | _ m ih =>
    have hpage := (respond_eq hmounted hthere (hbytes k s hasked)).2 (hfits k s hasked)
    have hrest : (c.request k s).rest = c.directory.visible.drop s := rfl
    have hprefix : (c.request k s).page c.board c.kind.listing <+: c.directory.visible.drop s :=
      takePage_prefix _ _ _ _ _
    have hfirst : c.directory.visible.drop s ≠ [] →
        (c.request k s).page c.board c.kind.listing ≠ [] := by
      intro hne
      rw [Request.page, hrest]
      cases hcases : c.directory.visible.drop s with
      | nil => exact absurd hcases hne
      | cons f fs => exact takePage_first c.kind (hbytes k s hasked) f fs
    generalize (c.request k s).page c.board c.kind.listing = page at hpage hprefix hfirst
    rw [hrest] at hpage
    obtain ⟨more, hmore⟩ := hprefix
    by_cases hall : page.length = (c.directory.visible.drop s).length
    · have hnil : more = [] := by
        rw [← hmore, List.length_append] at hall
        exact List.length_eq_zero_iff.mp (by omega)
      refine ⟨1, ?_⟩
      rw [follow, hpage, nextStart, if_pos hall, ← hmore, hnil, List.append_nil]
      rfl
    · have hne : c.directory.visible.drop s ≠ [] := by
        intro hnil
        rw [hnil] at hmore hall
        rw [(List.append_eq_nil_iff.mp hmore).1] at hall
        exact hall rfl
      have hpos : 0 < page.length := List.length_pos_iff.mpr (hfirst hne)
      have hdrop : c.directory.visible.drop (s + page.length) = more := by
        rw [← List.drop_drop, ← hmore, List.drop_left]
      have hnext : nextStart s page (c.directory.visible.drop s) = s + page.length := by
        rw [nextStart, if_neg hall]
      have hlt : (c.directory.visible.drop (s + page.length)).length < m := by
        rw [hdrop, ← hm, ← hmore, List.length_append]
        omega
      rw [hnext] at hpage
      have hnonzero : s + page.length ≠ 0 := by omega
      obtain ⟨fuel, hfollow⟩ := ih _ hlt (k + 1) _ rfl (hasked.next hpage hnonzero)
      refine ⟨fuel + 1, ?_⟩
      rw [follow, hpage]
      simp only [if_neg hnonzero, hfollow, Option.map_some]
      rw [hdrop, ← List.map_append, hmore]

end Client

/-- A listing that leaves out nothing is got exactly if every page fits with the text at its end. -/
theorem listing_complete (c : Client) (hmounted : c.directory.mounted = true)
    (hthere : c.directory.there = true)
    (hbytes : ∀ k s, Asked c.respond k s → 512 ≤ c.bytes k s) :
    (∃ fuel, follow c.respond fuel 0 0 = some c.expected) ↔
      ∀ k s, Asked c.respond k s → c.Fits k s := by
  constructor
  · rintro ⟨fuel, hfollow⟩ k s hasked
    obtain ⟨fuel', vs, hanswered⟩ := hasked.followed hfollow
    by_contra hfits
    exact answered_of_follow hanswered
      ((Client.respond_eq hmounted hthere (hbytes k s hasked)).1 hfits)
  · intro hfits
    obtain ⟨fuel, hfollow⟩ := Client.follow_rest hmounted hthere hbytes hfits _ 0 0 rfl Asked.first
    exact ⟨fuel, hfollow⟩

def oldFile (name : List Char) (hne : name ≠ [] := by decide)
    (hlength : name.length ≤ maxFilenameLength := by decide) : FileInfo :=
  ⟨false, name, 0, ⟨124, 0, 1, 0, 0, 0⟩, hne, hlength⟩

/-- A client of a directory of short names, with few buffers to spare. -/
def shortNames (n : ℕ) : Client where
  board := sam4e
  kind := .filelist
  dir := "0:/".toList
  directory := ⟨true, true, List.replicate n (oldFile ['a'])⟩
  maxItems := 0
  line _ := none
  freeBuffers _ := 5

lemma Asked.only_first {respond : ℕ → ℕ → Option (List Char)} {k s : ℕ}
    (h : ∀ vs next, (respond 0 0).bind readPage = some (vs, next) → next = 0)
    (hasked : Asked respond k s) : k = 0 ∧ s = 0 := by
  induction hasked with
  | first => exact ⟨rfl, rfl⟩
  | next _ hpage hnext ih =>
    obtain ⟨rfl, rfl⟩ := ih
    exact absurd (h _ _ hpage) hnext

theorem listing_complete_two : ∃ fuel, follow (shortNames 2).respond fuel 0 0 =
    some (shortNames 2).expected := by
  have hread : (((shortNames 2).respond 0 0).bind readPage).map Prod.snd = some 0 :=
      by decide +kernel
  have honly : ∀ {k s}, Asked (shortNames 2).respond k s → k = 0 ∧ s = 0 := by
    intro k s hasked
    apply hasked.only_first
    intro vs next hpage
    rw [hpage] at hread
    exact Option.some.inj hread
  apply (listing_complete (shortNames 2) rfl rfl _).mpr
  · intro k s hasked
    obtain ⟨rfl, rfl⟩ := honly hasked
    change PageFits sam4e filelist ((shortNames 2).request 0 0)
    decide +kernel
  · intro k s hasked
    obtain ⟨rfl, rfl⟩ := honly hasked
    decide +kernel

theorem listing_complete_short : ¬ ∀ c : Client, c.directory.mounted = true → c.directory.there =
    true →
    (∀ k s, Asked c.respond k s → 512 ≤ c.bytes k s) →
      ∃ fuel, follow c.respond fuel 0 0 = some c.expected := by
  intro h
  have hnone : (shortNames 12).respond 0 0 = none := by decide +kernel
  obtain ⟨fuel, hfollow⟩ := h (shortNames 12) rfl rfl (by
    intro k s hasked
    obtain ⟨rfl, rfl⟩ := hasked.only_first (fun vs next hpage => by rw [hnone] at hpage; cases
      hpage)
    decide +kernel)
  exact answered_of_follow hfollow hnone

end RepRapFirmware.Platform
