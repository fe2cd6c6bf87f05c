import RepRapFirmware.Library.CompactedArrays
import RepRapFirmware.Library.Runs

/-! The table of the HTTP sessions, which all clients of all interfaces share. -/

namespace RepRapFirmware.Networking.HttpSessions

open Library Library.CompactedArrays Library.Runs

def maxHttpSessions : ℕ := 8
def noSessionKey : UInt32 := 0
def httpSessionTimeout : UInt32 := 8000

variable {Address Interface : Type}

/-- The last field is not in the code: how many sessions were created before this one. -/
structure HttpSession (Address Interface : Type) where
  key : UInt32
  ip : Address
  iface : Interface
  lastQueryTime : UInt32
  postPort : UInt16
  isPostUploading : Bool
  number : ℕ

/-- The last two fields are not in the code: the addresses and keys of all sessions that were
created, and the numbers of those that were removed. -/
structure Table (Address Interface : Type) where
  sessions : Slots (HttpSession Address Interface)
  created : List (Address × UInt32)
  removed : List ℕ

/-- Where a request comes from, with the session key that is among its headers. -/
structure Client (Address Interface : Type) where
  remoteIP : Address
  remotePort : UInt16
  iface : Interface
  sessionKey : UInt32

namespace Table

abbrev numSessions (s : Table Address Interface) : ℕ := s.sessions.count

/-- Before the first session the array can contain anything. -/
def start (slot : ℕ → HttpSession Address Interface) : Table Address Interface := ⟨⟨slot, 0⟩, [],
    []⟩

def modify (i : ℕ) (f : HttpSession Address Interface → HttpSession Address Interface)
    (s : Table Address Interface) : Table Address Interface :=
  { s with sessions := s.sessions.modify i f }

def removeSession (i : ℕ) (s : Table Address Interface) : Table Address Interface :=
  if i < s.numSessions then
    { s with
      sessions := s.sessions.remove i
      removed := (s.sessions.slot i).number :: s.removed }
  else s

/-- A loop over the sessions below `i`, from the last one down. -/
def removeWhere (p : HttpSession Address Interface → Bool) :
    ℕ → Table Address Interface → Table Address Interface
  | 0, s => s
  | i + 1, s => removeWhere p i (if p (s.sessions.slot i) then s.removeSession i else s)

def disable (s : Table Address Interface) : Table Address Interface where
  sessions := { s.sessions with count := 0 }
  created := s.created
  removed := s.sessions.list.map HttpSession.number ++ s.removed

def checkSessions (now : UInt32) (s : Table Address Interface) : Table Address Interface :=
  s.removeWhere (fun x => httpSessionTimeout < now - x.lastQueryTime) s.numSessions

def disableInterface [DecidableEq Interface] (iface : Interface) (s : Table Address Interface) :
    Table Address Interface :=
  let s := s.removeWhere (fun x => iface = x.iface) s.numSessions
  if s.numSessions = 0 then s.disable else s

/-- A session has the address and the key of a request. -/
def isOf [DecidableEq Address] (r : Client Address Interface) (x : HttpSession Address Interface)
    : Bool :=
  x.ip = r.remoteIP ∧ x.key = r.sessionKey

/-- The numbers are drawn until there is one that the loop takes; it compares each of them with
the key that is left in the free place, once for each session. -/
def drawKey (draws : List UInt32) (s : Table Address Interface) : Option UInt32 :=
  draws.find? fun key =>
    let keyUnique := !(List.range s.numSessions).any fun _ =>
      (s.sessions.slot s.numSessions).key == key
    !(key == noSessionKey || !keyUnique)

def create (r : Client Address Interface) (key now : UInt32) (s : Table Address Interface) :
    Table Address Interface where
  sessions := s.sessions.push { s.sessions.slot s.numSessions with
    key := key
    ip := r.remoteIP
    lastQueryTime := now
    isPostUploading := false
    iface := r.iface
    number := s.created.length }
  created := s.created ++ [(r.remoteIP, key)]
  removed := s.removed

variable [DecidableEq Address]

def checkAuthenticated (r : Client Address Interface) (now : UInt32) (s : Table Address Interface) :
    Bool × Table Address Interface :=
  match s.sessions.find (isOf r) with
  | some i => (true, s.modify i fun x => { x with lastQueryTime := now })
  | none => (false, s)

/-- There is no result where none of the numbers that are drawn is taken. -/
def authenticate (withSessionKey : Bool) (draws : List UInt32) (r : Client Address Interface)
    (now : UInt32) (s : Table Address Interface) : Option (Bool × Table Address Interface) :=
  if s.numSessions < maxHttpSessions then
    if withSessionKey then (s.drawKey draws).map fun key => (true, s.create r key now)
    else
      match s.checkAuthenticated r now with
      | (true, s) => some (true, s)
      | (false, s) => some (true, s.create r noSessionKey now)
  else some (false, s)

def removeAuthentication (r : Client Address Interface) (s : Table Address Interface) :
    Bool × Table Address Interface :=
  match s.sessions.findLast (isOf r) with
  | some i => if (s.sessions.slot i).isPostUploading then (false, s) else (true, s.removeSession i)
  | none => (false, s)

def startUpload (r : Client Address Interface) (s : Table Address Interface)
    : Table Address Interface :=
  match s.sessions.find (isOf r) with
  | some i => s.modify i fun x => { x with postPort := r.remotePort, isPostUploading := true }
  | none => s

/-- An upload ends for the first of the sessions that meet the condition and are uploading. -/
def endUpload (p : HttpSession Address Interface → Bool) (now : UInt32)
    (s : Table Address Interface) : Table Address Interface :=
  match s.sessions.find fun x => p x && x.isPostUploading with
  | some i => s.modify i fun x => { x with isPostUploading := false, lastQueryTime := now }
  | none => s

def finishUpload (r : Client Address Interface) (now : UInt32) (s : Table Address Interface) :
    Table Address Interface := s.endUpload (isOf r) now

def cancelUpload (remoteIP : Address) (now : UInt32) (s : Table Address Interface) :
    Table Address Interface := s.endUpload (fun x => x.ip = remoteIP) now

end Table

/-- What can happen to the table. The clock is read more than once in a request, and `password`
is whether the password is right where one is given. -/
inductive Event (Address Interface : Type)
  | connect (r : Client Address Interface) (password : Option Bool) (withSessionKey : Bool)
      (draws : List UInt32) (clock : ℕ → UInt32)
  | request (r : Client Address Interface) (noPasswordSet disconnect : Bool) (clock : ℕ → UInt32)
  | post (r : Client Address Interface) (fileCreated : Bool) (now : UInt32)
  | uploadData (r : Client Address Interface) (now : UInt32)
  | uploadDone (r : Client Address Interface) (now : UInt32)
  | uploadCancelled (remoteIP : Address) (now : UInt32)
  | checkSessions (now : UInt32)
  | disableInterface (iface : Interface)
  | disable

namespace Table

variable [DecidableEq Address] [DecidableEq Interface]

/-- `rr_connect`, for which no session is made before it is handled. -/
def connect (r : Client Address Interface) (password : Option Bool) (withSessionKey : Bool)
    (draws : List UInt32) (clock : ℕ → UInt32) (s : Table Address Interface) :
    Option (Table Address Interface) :=
  let s := (s.checkAuthenticated r (clock 0)).2
  match password with
  | some true => (s.authenticate withSessionKey draws r (clock 1)).map Prod.snd
  | some false => some s
  | none => some (s.checkAuthenticated r (clock 1)).2

def respond (r : Client Address Interface) (disconnect : Bool) (clock : ℕ → UInt32)
    (s : Table Address Interface) : Table Address Interface :=
  let s := (s.checkAuthenticated r (clock 2)).2
  match s.checkAuthenticated r (clock 3) with
  | (true, s) => if disconnect then (s.removeAuthentication r).2 else s
  | (false, s) => s

/-- Any other request; a client gets a session by its first one where there is no password. -/
def request (r : Client Address Interface) (noPasswordSet disconnect : Bool) (clock : ℕ → UInt32)
    (s : Table Address Interface) : Option (Table Address Interface) :=
  match s.checkAuthenticated r (clock 0) with
  | (true, s) => some (s.respond r disconnect clock)
  | (false, s) =>
    if noPasswordSet then
      (s.authenticate false [] r (clock 1)).map fun answer => answer.2.respond r disconnect clock
    else some (s.respond r disconnect clock)

def post (r : Client Address Interface) (fileCreated : Bool) (now : UInt32)
    (s : Table Address Interface) : Table Address Interface :=
  match s.checkAuthenticated r now with
  | (true, s) => if fileCreated then s.startUpload r else s
  | (false, s) => s

def step (s : Table Address Interface) : Event Address Interface → Option (Table Address Interface)
  | .connect r password withSessionKey draws clock => s.connect r password withSessionKey draws
      clock
  | .request r noPasswordSet disconnect clock => s.request r noPasswordSet disconnect clock
  | .post r fileCreated now => some (s.post r fileCreated now)
  | .uploadData r now => some (s.checkAuthenticated r now).2
  | .uploadDone r now => some (s.finishUpload r now)
  | .uploadCancelled remoteIP now => some (s.cancelUpload remoteIP now)
  | .checkSessions now => some (s.checkSessions now)
  | .disableInterface iface => some (s.disableInterface iface)
  | .disable => some s.disable

/-- Where no number is taken the loop goes on for ever, and nothing happens any more. -/
def next (s : Option (Table Address Interface)) (e : Event Address Interface) :
    Option (Table Address Interface) := s.bind (·.step e)

/-- The keys are different, and so are the addresses of the sessions without a key. -/
structure Distinct (s : Table Address Interface) : Prop where
  keys : s.sessions.list.Pairwise fun x y => x.key ≠ noSessionKey → x.key ≠ y.key
  addresses : s.sessions.list.Pairwise fun x y =>
    x.key = noSessionKey → y.key = noSessionKey → x.ip ≠ y.ip

/-- The key that is taken is that of no session. -/
def FreshKey (draws : List UInt32) (s : Table Address Interface) : Prop :=
  ∀ key ∈ s.drawKey draws, ∀ x ∈ s.sessions.list, x.key ≠ key

/-- A client that has no session with the key it sends has no session without a key either. -/
def FreshAddress (r : Client Address Interface) (s : Table Address Interface) : Prop :=
  (∃ x ∈ s.sessions.list, isOf r x) ∨
    ∀ x ∈ s.sessions.list, x.key = noSessionKey → x.ip ≠ r.remoteIP

/-- Where there is a place for a session, it is one that is not there yet. -/
def FreshSession (withSessionKey : Bool) (draws : List UInt32) (r : Client Address Interface)
    (s : Table Address Interface) : Prop :=
  s.numSessions < maxHttpSessions → if withSessionKey then s.FreshKey draws else s.FreshAddress r

def Fresh (s : Table Address Interface) : Event Address Interface → Prop
  | .connect r (some true) withSessionKey draws _ => s.FreshSession withSessionKey draws r
  | .request r true _ _ => s.FreshSession false [] r
  | _ => True

end Table

/-! ### The sessions as they are created and removed -/

/-- The sessions that are there, by number, and what was created and removed. -/
structure Ledger (Address : Type) where
  live : List (ℕ × Address × UInt32)
  created : List (Address × UInt32)
  removed : List ℕ

namespace Ledger

variable {L : Ledger Address} {i : ℕ} {ip : Address} {key : UInt32}

def create (ip : Address) (key : UInt32) (L : Ledger Address) : Ledger Address where
  live := L.live ++ [(L.created.length, ip, key)]
  created := L.created ++ [(ip, key)]
  removed := L.removed

def remove (i : ℕ) (L : Ledger Address) : Ledger Address where
  live := L.live.eraseIdx i
  created := L.created
  removed := (L.live[i]?.map Prod.fst).toList ++ L.removed

def clear (L : Ledger Address) : Ledger Address where
  live := []
  created := L.created
  removed := L.live.map Prod.fst ++ L.removed

/-- The sessions that are there are those that were created and not removed since. -/
structure Sound (L : Ledger Address) : Prop where
  numbers : L.live.map Prod.fst = (List.range L.created.length).filter (· ∉ L.removed)
  entries : ∀ x ∈ L.live, L.created[x.1]? = some x.2
  removed : ∀ n ∈ L.removed, n < L.created.length

structure Distinct (L : Ledger Address) : Prop where
  keys : L.live.Pairwise fun x y => x.2.2 ≠ noSessionKey → x.2.2 ≠ y.2.2
  addresses : L.live.Pairwise fun x y =>
    x.2.2 = noSessionKey → y.2.2 = noSessionKey → x.2.1 ≠ y.2.1

lemma Sound.create (h : L.Sound) (ip : Address) (key : UInt32) : (L.create ip key).Sound where
  numbers := by
    have hnew : L.created.length ∉ L.removed := fun hmem => (h.removed _ hmem).false
    change (L.live ++ [_]).map _ = (List.range (L.created ++ [_]).length).filter (· ∉ L.removed)
    rw [List.map_append, h.numbers, List.length_append, List.length_singleton, List.range_succ,
      List.filter_append, List.filter_singleton, decide_eq_true hnew]
    rfl
  entries := by
    intro x hx
    change (L.created ++ [_])[x.1]? = _
    rcases List.mem_append.mp hx with hold | hnew
    · have hentry := h.entries x hold
      rw [List.getElem?_append_left (List.getElem?_eq_some_iff.mp hentry).1, hentry]
    · rw [List.mem_singleton.mp hnew]
      simp
  removed := by
    intro n hn
    change n < (L.created ++ [_]).length
    rw [List.length_append]
    exact (h.removed n hn).trans_le (Nat.le_add_right _ _)

lemma Sound.remove (h : L.Sound) (i : ℕ) : (L.remove i).Sound := by
  have hnumbers : (L.live.eraseIdx i).map Prod.fst = (L.live.map Prod.fst).eraseIdx i :=
    (List.eraseIdx_map ..).symm
  have hnodup : (L.live.map Prod.fst).Nodup := by
    rw [h.numbers]
    exact List.nodup_range.filter _
  constructor
  · change (L.live.eraseIdx i).map Prod.fst = (List.range L.created.length).filter
      (· ∉ (L.live[i]?.map Prod.fst).toList ++ L.removed)
    cases hx : L.live[i]? with
    | none =>
      rw [List.eraseIdx_of_length_le (List.getElem?_eq_none_iff.mp hx), h.numbers]
      rfl
    | some x =>
      have hget : (L.live.map Prod.fst)[i]? = some x.1 := by rw [List.getElem?_map, hx]; rfl
      obtain ⟨hi, hval⟩ := List.getElem?_eq_some_iff.mp hget
      rw [hnumbers, ← List.Nodup.erase_getElem hnodup i hi, hval, hnodup.erase_eq_filter, h.numbers,
        List.filter_filter]
      apply List.filter_congr
      intro n _
      by_cases hn : n = x.1 <;> simp [hn]
  · exact fun x hx => h.entries x (List.mem_of_mem_eraseIdx hx)
  · intro n hn
    change n ∈ (L.live[i]?.map Prod.fst).toList ++ L.removed at hn
    rcases List.mem_append.mp hn with hnew | hold
    · obtain ⟨x, hx, rfl⟩ := Option.map_eq_some_iff.mp (Option.mem_toList.mp hnew)
      exact (List.getElem?_eq_some_iff.mp (h.entries x (List.mem_of_getElem? hx))).1
    · exact h.removed n hold

lemma Sound.clear (h : L.Sound) : L.clear.Sound where
  numbers := by
    have hempty : (List.range L.created.length).filter
        (fun n => n ∉ L.live.map Prod.fst ++ L.removed) = [] := by
      rw [List.filter_eq_nil_iff]
      intro n hn
      rw [h.numbers]
      by_cases hremoved : n ∈ L.removed <;> simp_all
    exact hempty.symm
  entries := fun x hx => absurd hx List.not_mem_nil
  removed := by
    intro n hn
    rcases List.mem_append.mp hn with hlive | hold
    · obtain ⟨x, hx, rfl⟩ := List.mem_map.mp hlive
      exact (List.getElem?_eq_some_iff.mp (h.entries x hx)).1
    · exact h.removed n hold

lemma Sound.mem_iff (h : L.Sound) {e : Address × UInt32} :
    (∃ n, (n, e) ∈ L.live) ↔ ∃ n, L.created[n]? = some e ∧ n ∉ L.removed := by
  constructor
  · rintro ⟨n, hn⟩
    have hmem := List.mem_map_of_mem (f := Prod.fst) hn
    rw [h.numbers, List.mem_filter] at hmem
    exact ⟨n, h.entries _ hn, by simpa using hmem.2⟩
  · rintro ⟨n, hn, hremoved⟩
    have hlt := (List.getElem?_eq_some_iff.mp hn).1
    have hmem : n ∈ L.live.map Prod.fst := by
      rw [h.numbers, List.mem_filter]
      exact ⟨List.mem_range.mpr hlt, by simpa using hremoved⟩
    obtain ⟨⟨m, e'⟩, hlive, rfl⟩ := List.mem_map.mp hmem
    have hentry := h.entries _ hlive
    rw [hn] at hentry
    exact ⟨m, Option.some.inj hentry ▸ hlive⟩

lemma Distinct.sublist {L' : Ledger Address} (h : L.Distinct) (hsub : L'.live.Sublist L.live) :
    L'.Distinct := ⟨h.keys.sublist hsub, h.addresses.sublist hsub⟩

/-- The key of the new session is that of no other one, or it has none and another address. -/
def New (L : Ledger Address) (ip : Address) (key : UInt32) : Prop :=
  ∀ x ∈ L.live, x.2.2 = key → key = noSessionKey ∧ x.2.1 ≠ ip

/-- What a new session must be for the sessions to stay distinct. -/
lemma distinct_create (h : L.Distinct) : (L.create ip key).Distinct ↔ L.New ip key := by
  constructor
  · intro hnew x hx heq
    have hkeys := (List.pairwise_append.mp hnew.keys).2.2 x hx _ (List.mem_singleton_self _)
    have haddresses := (List.pairwise_append.mp hnew.addresses).2.2 x hx _ (List.mem_singleton_self
      _)
    by_cases hzero : key = noSessionKey
    · exact ⟨hzero, haddresses (heq.trans hzero) hzero⟩
    · exact absurd heq (hkeys (heq ▸ hzero))
  · intro hnew
    constructor
    · refine List.pairwise_append.mpr ⟨h.keys, List.pairwise_singleton .., fun x hx y hy => ?_⟩
      rw [List.mem_singleton.mp hy]
      exact fun hne heq => hne (heq.trans (hnew x hx heq).1)
    · refine List.pairwise_append.mpr ⟨h.addresses, List.pairwise_singleton .., fun x hx y hy => ?_⟩
      rw [List.mem_singleton.mp hy]
      exact fun hzero hzero' => (hnew x hx (hzero.trans hzero'.symm)).2

/-- Nothing but removals lie between the ledgers. -/
inductive Reduced (L : Ledger Address) : Ledger Address → Prop
  | refl : Reduced L L
  | remove {L' : Ledger Address} (i : ℕ) (h : Reduced L L') : Reduced L (L'.remove i)
  | clear {L' : Ledger Address} (h : Reduced L L') : Reduced L L'.clear

lemma Reduced.sound {L' : Ledger Address} (h : Reduced L L') (hL : L.Sound) : L'.Sound := by
  induction h with
  | refl => exact hL
  | remove i _ ih => exact ih.remove i
  | clear _ ih => exact ih.clear

lemma Reduced.sublist {L' : Ledger Address} (h : Reduced L L') : L'.live.Sublist L.live := by
  induction h with
  | refl => exact List.Sublist.refl _
  | remove i _ ih => exact (List.eraseIdx_sublist ..).trans ih
  | clear _ _ => exact List.nil_sublist _

end Ledger

/-! ### What the operations do to the sessions -/

namespace Table

variable {s t : Table Address Interface} {i : ℕ} {r : Client Address Interface} {now : UInt32}

def entry (x : HttpSession Address Interface) : ℕ × Address × UInt32 := (x.number, x.ip, x.key)

def ledger (s : Table Address Interface) : Ledger Address where
  live := s.sessions.list.map entry
  created := s.created
  removed := s.removed

lemma distinct_iff : s.Distinct ↔ s.ledger.Distinct := by
  constructor
  · rintro ⟨hkeys, haddresses⟩
    exact ⟨List.pairwise_map.mpr hkeys, List.pairwise_map.mpr haddresses⟩
  · rintro ⟨hkeys, haddresses⟩
    exact ⟨List.pairwise_map.mp hkeys, List.pairwise_map.mp haddresses⟩

lemma numSessions_eq (s : Table Address Interface) : s.numSessions = s.ledger.live.length := by
  rw [ledger, List.length_map, length_list]

lemma ledger_removeSession (h : i < s.numSessions) :
    (s.removeSession i).ledger = s.ledger.remove i := by
  have hget : (s.sessions.list.map entry)[i]? = some (entry (s.sessions.slot i)) := by
    rw [List.getElem?_map, getElem?_list h]
    rfl
  rw [removeSession, if_pos h, Ledger.remove, ledger]
  simp only [list_remove h, ledger, hget, List.eraseIdx_map]
  rfl

lemma ledger_create (r : Client Address Interface) (key now : UInt32) (s : Table Address Interface)
    :
    (s.create r key now).ledger = s.ledger.create r.remoteIP key := by
  rw [ledger, Ledger.create, create, list_push, List.map_append]
  rfl

lemma ledger_disable (s : Table Address Interface) : s.disable.ledger = s.ledger.clear := by
  have hnumbers : s.sessions.list.map HttpSession.number = (s.sessions.list.map entry).map Prod.fst
      := by
    rw [List.map_map]
    rfl
  rw [disable, hnumbers]
  rfl

/-- All is as before but for the times and the uploads. -/
structure Touched (s t : Table Address Interface) : Prop where
  ledger : t.ledger = s.ledger
  free : t.sessions.slot t.numSessions = s.sessions.slot s.numSessions

lemma Touched.refl (s : Table Address Interface) : Touched s s := ⟨rfl, rfl⟩

lemma Touched.trans {u : Table Address Interface} (h : Touched s t) (h' : Touched t u)
    : Touched s u :=
  ⟨h'.ledger.trans h.ledger, h'.free.trans h.free⟩

lemma Touched.numSessions (h : Touched s t) : t.numSessions = s.numSessions := by
  rw [numSessions_eq, h.ledger, ← numSessions_eq]

lemma Touched.entries (h : Touched s t) {P : ℕ × Address × UInt32 → Prop} :
    (∀ x ∈ t.sessions.list, P (entry x)) ↔ ∀ x ∈ s.sessions.list, P (entry x) := by
  have hlive := congrArg Ledger.live h.ledger
  change t.sessions.list.map entry = s.sessions.list.map entry at hlive
  rw [← List.forall_mem_map (f := entry), hlive, List.forall_mem_map]

lemma modify_touched (f : HttpSession Address Interface → HttpSession Address Interface)
    (hf : ∀ x, entry (f x) = entry x) (hi : i < s.numSessions) : Touched s (s.modify i f) where
  ledger := by
    rw [ledger, ledger, modify, map_list_modify f entry hf]
  free := Function.update_of_ne hi.ne' ..

lemma numSessions_removeSession (h : i < s.numSessions) : i ≤ (s.removeSession i).numSessions := by
  rw [removeSession, if_pos h, numSessions, Slots.remove, if_pos h]
  exact Nat.le_sub_one_of_lt h

/-- The loops remove what meets the condition, whatever is removed before. -/
lemma removeWhere_spec (p : HttpSession Address Interface → Bool) {n : ℕ} (hn : n ≤ s.numSessions) :
    (s.removeWhere p n).sessions.list =
      (s.sessions.list.take n).filter (fun x => !p x) ++ s.sessions.list.drop n := by
  induction n generalizing s with
  | zero => simp [removeWhere]
  | succ i ih =>
    have hlt : i < s.numSessions := hn
    obtain ⟨hi, hval⟩ := List.getElem?_eq_some_iff.mp (getElem?_list hlt)
    rw [removeWhere]
    by_cases hp : p (s.sessions.slot i)
    · have hlist : (s.removeSession i).sessions.list =
          s.sessions.list.take i ++ s.sessions.list.drop (i + 1) := by
        rw [removeSession, if_pos hlt, ← List.eraseIdx_eq_take_drop_succ]
        exact list_remove hlt
      have htake : (s.sessions.list.take i).length = i := List.length_take_of_le hi.le
      rw [if_pos hp, ih (numSessions_removeSession hlt), hlist, List.take_left' htake,
        List.drop_left' htake, List.take_succ_eq_append_getElem hi, hval, List.filter_append]
      simp [hp]
    · rw [if_neg hp, ih (Nat.le_of_succ_le hn), List.take_succ_eq_append_getElem hi, hval,
        List.filter_append, List.drop_eq_getElem_cons hi, hval]
      simp [hp]

lemma removeSession_list (hi : i < s.numSessions) :
    (s.removeSession i).sessions.list = s.sessions.list.eraseIdx i := by
  rw [removeSession, if_pos hi]
  exact list_remove hi

lemma removeWhere_all (p : HttpSession Address Interface → Bool) (s : Table Address Interface) :
    (s.removeWhere p s.numSessions).sessions.list = s.sessions.list.filter fun x => !p x := by
  have hlen := length_list s.sessions
  rw [removeWhere_spec p le_rfl, numSessions, ← hlen, List.take_length, List.drop_length,
    List.append_nil]

lemma removeWhere_reduced (p : HttpSession Address Interface → Bool) {L : Ledger Address} {n : ℕ}
    (hn : n ≤ s.numSessions) (h : L.Reduced s.ledger) : L.Reduced (s.removeWhere p n).ledger := by
  induction n generalizing s with
  | zero => exact h
  | succ i ih =>
    rw [removeWhere]
    by_cases hp : p (s.sessions.slot i)
    · rw [if_pos hp]
      exact ih (numSessions_removeSession hn) (ledger_removeSession hn ▸ h.remove i)
    · rw [if_neg hp]
      exact ih (Nat.le_of_succ_le hn) h

/-- What holds in every state of a run. -/
def Kept (s : Table Address Interface) : Prop := s.ledger.Sound ∧ s.numSessions ≤ maxHttpSessions

lemma kept_start (slot : ℕ → HttpSession Address Interface) : (start slot).Kept :=
  ⟨⟨rfl, fun _ hx => absurd hx List.not_mem_nil, fun _ hn => absurd hn List.not_mem_nil⟩,
    Nat.zero_le _⟩

lemma disableInterface_reduced [DecidableEq Interface] (iface : Interface) :
    s.ledger.Reduced (s.disableInterface iface).ledger := by
  have hloop := removeWhere_reduced (fun x => iface = x.iface) le_rfl (Ledger.Reduced.refl (L :=
    s.ledger))
  rw [disableInterface]
  split_ifs
  · rw [ledger_disable]
    exact hloop.clear
  · exact hloop

lemma endUpload_touched (p : HttpSession Address Interface → Bool) (now : UInt32)
    (s : Table Address Interface) : Touched s (s.endUpload p now) := by
  rw [endUpload]
  cases hfind : s.sessions.find fun x => p x && x.isPostUploading with
  | none => exact Touched.refl s
  | some i => exact modify_touched _ (fun _ => rfl) (find_some hfind).1

lemma Touched.drawKey (h : Touched s t) (draws : List UInt32) : t.drawKey draws = s.drawKey draws :=
    by
  rw [Table.drawKey, Table.drawKey, h.free, h.numSessions]

lemma drawKey_ne {draws : List UInt32} {key : UInt32} (h : s.drawKey draws = some key) :
    key ≠ noSessionKey := by
  rw [drawKey] at h
  have htaken := List.find?_some h
  rintro rfl
  simp at htaken

lemma new_iff {ip : Address} {key : UInt32} : s.ledger.New ip key ↔
    ∀ x ∈ s.sessions.list, x.key = key → key = noSessionKey ∧ x.ip ≠ ip := List.forall_mem_map

/-- Sessions are removed at most, or one is created, which is a new one under the condition. -/
inductive Outcome (s t : Table Address Interface) (fresh : Prop) : Prop
  | reduced (hfresh : fresh) (reduced : s.ledger.Reduced t.ledger)
  | created (ip : Address) (key : UInt32) (room : s.numSessions < maxHttpSessions)
      (new : s.ledger.New ip key ↔ fresh) (reduced : (s.ledger.create ip key).Reduced t.ledger)
      (kept : ¬ fresh → t.ledger = s.ledger.create ip key)

lemma Touched.outcome (h : Touched s t) {fresh : Prop} (hfresh : fresh) : Outcome s t fresh :=
  .reduced hfresh (h.ledger ▸ Ledger.Reduced.refl)

variable [DecidableEq Address]

lemma checkAuthenticated_iff : (s.checkAuthenticated r now).1 = true ↔
    ∃ x ∈ s.sessions.list, isOf r x := by
  rw [← find_isSome, checkAuthenticated]
  cases s.sessions.find (isOf r) <;> simp

lemma checkAuthenticated_cases (r : Client Address Interface) (now : UInt32)
    (s : Table Address Interface) :
    (∃ t, s.checkAuthenticated r now = (true, t) ∧ Touched s t ∧ ∃ x ∈ s.sessions.list, isOf r x) ∨
      s.checkAuthenticated r now = (false, s) ∧ ¬ ∃ x ∈ s.sessions.list, isOf r x := by
  have hknown := find_isSome (s := s.sessions) (p := isOf r)
  rw [checkAuthenticated]
  cases hfind : s.sessions.find (isOf r) with
  | none =>
    rw [hfind] at hknown
    exact Or.inr ⟨rfl, fun hex => Bool.false_ne_true (hknown.mpr hex)⟩
  | some i =>
    rw [hfind] at hknown
    exact Or.inl ⟨_, rfl, modify_touched _ (fun _ => rfl) (find_some hfind).1, hknown.mp rfl⟩

lemma checkAuthenticated_touched (r : Client Address Interface) (now : UInt32)
    (s : Table Address Interface) : Touched s (s.checkAuthenticated r now).2 := by
  rcases checkAuthenticated_cases r now s with ⟨t, hcheck, htouched, -⟩ | ⟨hcheck, -⟩
  · rw [hcheck]
    exact htouched
  · rw [hcheck]
    exact Touched.refl s

lemma startUpload_touched (r : Client Address Interface) (s : Table Address Interface) :
    Touched s (s.startUpload r) := by
  rw [startUpload]
  cases hfind : s.sessions.find (isOf r) with
  | none => exact Touched.refl s
  | some i => exact modify_touched _ (fun _ => rfl) (find_some hfind).1

lemma removeAuthentication_reduced {L : Ledger Address} (h : L.Reduced s.ledger) :
    L.Reduced (s.removeAuthentication r).2.ledger := by
  rw [removeAuthentication]
  cases hfind : s.sessions.findLast (isOf r) with
  | none => exact h
  | some i =>
    simp only
    split_ifs
    · exact h
    · rw [ledger_removeSession (findLast_some hfind).1]
      exact h.remove i

/-! ### What an event can do -/

lemma Touched.freshSession (h : Touched s t) {withSessionKey : Bool} {draws : List UInt32} :
    t.FreshSession withSessionKey draws r ↔ s.FreshSession withSessionKey draws r := by
  have hkeys : ∀ key, (∀ x ∈ t.sessions.list, x.key ≠ key) ↔ ∀ x ∈ s.sessions.list, x.key ≠ key :=
    fun key => h.entries (P := fun x => x.2.2 ≠ key)
  have hknown : (∃ x ∈ t.sessions.list, isOf r x) ↔ ∃ x ∈ s.sessions.list, isOf r x := by
    have hnone := h.entries (P := fun x => ¬ (x.2.1 = r.remoteIP ∧ x.2.2 = r.sessionKey))
    simpa [isOf, entry] using not_congr hnone
  have haddresses : (∀ x ∈ t.sessions.list, x.key = noSessionKey → x.ip ≠ r.remoteIP) ↔
      ∀ x ∈ s.sessions.list, x.key = noSessionKey → x.ip ≠ r.remoteIP :=
    h.entries (P := fun x => x.2.2 = noSessionKey → x.2.1 ≠ r.remoteIP)
  simp only [FreshSession, FreshKey, FreshAddress, h.numSessions, h.drawKey, hkeys, hknown,
    haddresses]

lemma authenticate_spec {withSessionKey : Bool} {draws : List UInt32} {u
    : Bool × Table Address Interface}
    (h : s.authenticate withSessionKey draws r now = some u) :
    Touched s u.2 ∧ s.FreshSession withSessionKey draws r ∨
    ∃ key, s.numSessions < maxHttpSessions ∧ u.2 = s.create r key now ∧
      (s.ledger.New r.remoteIP key ↔ s.FreshSession withSessionKey draws r) ∧
      (withSessionKey = false → key = noSessionKey ∧ ¬ ∃ x ∈ s.sessions.list, isOf r x) := by
  rw [authenticate] at h
  by_cases hroom : s.numSessions < maxHttpSessions
  · rw [if_pos hroom] at h
    cases withSessionKey with
    | true =>
      obtain ⟨key, hkey, rfl⟩ := Option.map_eq_some_iff.mp h
      refine Or.inr ⟨key, hroom, rfl, ?_, nofun⟩
      rw [new_iff]
      constructor
      · rintro hnew - key' hkey' x hx rfl
        obtain rfl : key = x.key := Option.some.inj (hkey.symm.trans hkey')
        exact drawKey_ne hkey (hnew x hx rfl).1
      · exact fun hfresh x hx heq => absurd heq (hfresh hroom key hkey x hx)
    | false =>
      simp only [Bool.false_eq_true, if_false] at h
      rcases checkAuthenticated_cases r now s with ⟨t, hcheck, htouched, hknown⟩ | ⟨hcheck,
        hunknown⟩
      · rw [hcheck] at h
        obtain rfl := Option.some.inj h
        exact Or.inl ⟨htouched, fun _ => Or.inl hknown⟩
      · rw [hcheck] at h
        obtain rfl := Option.some.inj h
        refine Or.inr ⟨noSessionKey, hroom, rfl, ?_, fun _ => ⟨rfl, hunknown⟩⟩
        rw [new_iff]
        constructor
        · exact fun hnew _ => Or.inr fun x hx heq => (hnew x hx heq).2
        · exact fun hfresh x hx heq => ⟨rfl, (hfresh hroom).resolve_left hunknown x hx heq⟩
  · rw [if_neg hroom] at h
    obtain rfl := Option.some.inj h
    exact Or.inl ⟨Touched.refl s, fun hlt => absurd hlt hroom⟩

lemma respond_reduced {L : Ledger Address} (h : L.Reduced s.ledger) (disconnect : Bool)
    (clock : ℕ → UInt32) : L.Reduced (s.respond r disconnect clock).ledger := by
  have hfirst := checkAuthenticated_touched r (clock 2) s
  rw [← hfirst.ledger] at h
  rw [respond]
  rcases checkAuthenticated_cases r (clock 3) (s.checkAuthenticated r (clock 2)).2 with
    ⟨t, hcheck, htouched, -⟩ | ⟨hcheck, -⟩
  · rw [← htouched.ledger] at h
    rw [hcheck]
    cases disconnect with
    | true => exact removeAuthentication_reduced h
    | false => exact h
  · rw [hcheck]
    exact h

lemma respond_of_unknown (h : ¬ ∃ x ∈ s.sessions.list, isOf r x) (disconnect : Bool)
    (clock : ℕ → UInt32) : s.respond r disconnect clock = s := by
  have hcheck : ∀ now, s.checkAuthenticated r now = (false, s) := by
    intro now
    rcases checkAuthenticated_cases r now s with ⟨t, -, -, hknown⟩ | ⟨hcheck, -⟩
    · exact absurd hknown h
    · exact hcheck
  simp only [respond, hcheck]

lemma connect_outcome {password : Option Bool} {withSessionKey : Bool} {draws : List UInt32}
    {clock : ℕ → UInt32} (h : s.connect r password withSessionKey draws clock = some t) :
    Outcome s t (s.Fresh (.connect r password withSessionKey draws clock)) := by
  have hfirst := checkAuthenticated_touched r (clock 0) s
  cases password with
  | none =>
    obtain rfl := Option.some.inj h
    exact (hfirst.trans (checkAuthenticated_touched ..)).outcome trivial
  | some ok =>
    cases ok with
    | false =>
      obtain rfl := Option.some.inj h
      exact hfirst.outcome trivial
    | true =>
      obtain ⟨u, hu, rfl⟩ := Option.map_eq_some_iff.mp h
      rcases authenticate_spec hu with ⟨htouched, hfresh⟩ | ⟨key, hroom, hcreate, hnew, -⟩
      · exact (hfirst.trans htouched).outcome (hfirst.freshSession.mp hfresh)
      · have hledger : u.2.ledger = s.ledger.create r.remoteIP key := by
          rw [hcreate, ledger_create, hfirst.ledger]
        rw [hfirst.freshSession, hfirst.ledger] at hnew
        exact .created _ key (hfirst.numSessions ▸ hroom) hnew (hledger ▸ .refl) fun _ => hledger

lemma request_outcome {noPasswordSet disconnect : Bool} {clock : ℕ → UInt32}
    (h : s.request r noPasswordSet disconnect clock = some t) :
    Outcome s t (s.Fresh (.request r noPasswordSet disconnect clock)) := by
  have hfresh : s.FreshSession false [] r → s.Fresh (.request r noPasswordSet disconnect clock) :=
      by
    intro hsession
    cases noPasswordSet with
    | true => exact hsession
    | false => trivial
  rw [request] at h
  rcases checkAuthenticated_cases r (clock 0) s with ⟨s', hcheck, htouched, hknown⟩ | ⟨hcheck,
    hunknown⟩
  · rw [hcheck] at h
    obtain rfl := Option.some.inj h
    exact .reduced (hfresh fun _ => Or.inl hknown) (respond_reduced (htouched.ledger ▸ .refl) ..)
  · rw [hcheck] at h
    cases noPasswordSet with
    | false =>
      obtain rfl := Option.some.inj h
      exact .reduced trivial (respond_reduced .refl ..)
    | true =>
      obtain ⟨u, hu, rfl⟩ := Option.map_eq_some_iff.mp h
      rcases authenticate_spec hu with ⟨htouched, hsession⟩ | ⟨key, hroom, hcreate, hnew, hzero⟩
      · exact .reduced hsession (respond_reduced (htouched.ledger ▸ .refl) ..)
      · obtain ⟨rfl, -⟩ := hzero rfl
        have hledger : u.2.ledger = s.ledger.create r.remoteIP noSessionKey := by
          rw [hcreate, ledger_create]
        refine .created _ noSessionKey hroom hnew (respond_reduced (hledger ▸ .refl) ..) fun hnot
          => ?_
        -- the request has a key, as its address has a session without one
        have hstill : ¬ ∃ x ∈ u.2.sessions.list, isOf r x := by
          rintro ⟨x, hx, hof⟩
          rw [hcreate, create, list_push, List.mem_append, List.mem_singleton] at hx
          rcases hx with hold | rfl
          · exact hunknown ⟨x, hold, hof⟩
          · simp only [isOf, true_and, decide_eq_true_eq] at hof
            refine hnot fun _ => Or.inr fun y hy heq hip => hunknown ⟨y, hy, ?_⟩
            simp [isOf, heq, hip, hof]
        rw [respond_of_unknown hstill, hledger]

lemma checkAuthenticated_created (h : s.Kept) (r : Client Address Interface) (now : UInt32) :
    (s.checkAuthenticated r now).1 = true ↔
      ∃ n, s.created[n]? = some (r.remoteIP, r.sessionKey) ∧ n ∉ s.removed := by
  rw [checkAuthenticated_iff]
  refine Iff.trans ?_ h.1.mem_iff
  constructor
  · rintro ⟨x, hx, hof⟩
    obtain ⟨hip, hkey⟩ := of_decide_eq_true hof
    exact ⟨x.number, List.mem_map.mpr ⟨x, hx, by rw [entry, hip, hkey]⟩⟩
  · rintro ⟨n, hn⟩
    obtain ⟨x, hx, heq⟩ := List.mem_map.mp hn
    obtain ⟨-, hentry⟩ := Prod.mk.inj heq
    obtain ⟨hip, hkey⟩ := Prod.mk.inj hentry
    exact ⟨x, hx, decide_eq_true ⟨hip, hkey⟩⟩

lemma authenticate_none {withSessionKey : Bool} {draws : List UInt32}
    (h : s.authenticate withSessionKey draws r now = none)
    : s.FreshSession withSessionKey draws r := by
  intro hroom
  rw [authenticate, if_pos hroom] at h
  cases withSessionKey with
  | true =>
    intro key hkey
    rw [Option.map_eq_none_iff.mp h] at hkey
    exact absurd hkey (Option.not_mem_none key)
  | false =>
    simp only [Bool.false_eq_true, if_false] at h
    split at h <;> exact absurd h (Option.some_ne_none _)

variable [DecidableEq Interface]

/-- Where no number is taken there is no new key. -/
lemma step_none {e : Event Address Interface} (h : s.step e = none) : s.Fresh e := by
  cases e with
  | connect r password withSessionKey draws clock =>
    rcases password with - | - | -
    · trivial
    · trivial
    · have hfresh := authenticate_none (Option.map_eq_none_iff.mp h)
      exact (checkAuthenticated_touched r (clock 0) s).freshSession.mp hfresh
  | request r noPasswordSet disconnect clock =>
    cases noPasswordSet with
    | false => trivial
    | true =>
      change s.request r true disconnect clock = none at h
      rw [request] at h
      rcases checkAuthenticated_cases r (clock 0) s with ⟨t, -, -, hknown⟩ | ⟨hcheck, -⟩
      · exact fun _ => Or.inl hknown
      · rw [hcheck] at h
        exact authenticate_none (Option.map_eq_none_iff.mp h)
  | _ => exact absurd h (Option.some_ne_none _)

lemma step_outcome {e : Event Address Interface} (h : s.step e = some t)
    : Outcome s t (s.Fresh e) := by
  cases e with
  | connect r password withSessionKey draws clock => exact connect_outcome h
  | request r noPasswordSet disconnect clock => exact request_outcome h
  | post r fileCreated now =>
    obtain rfl := Option.some.inj h
    rw [post]
    rcases checkAuthenticated_cases r now s with ⟨t, hcheck, htouched, -⟩ | ⟨hcheck, -⟩
    · rw [hcheck]
      cases fileCreated with
      | true => exact (htouched.trans (startUpload_touched r t)).outcome trivial
      | false => exact htouched.outcome trivial
    · rw [hcheck]
      exact (Touched.refl s).outcome trivial
  | uploadData r now =>
    obtain rfl := Option.some.inj h
    exact (checkAuthenticated_touched r now s).outcome trivial
  | uploadDone r now =>
    obtain rfl := Option.some.inj h
    exact (endUpload_touched _ now s).outcome trivial
  | uploadCancelled remoteIP now =>
    obtain rfl := Option.some.inj h
    exact (endUpload_touched _ now s).outcome trivial
  | checkSessions now =>
    obtain rfl := Option.some.inj h
    exact .reduced trivial (removeWhere_reduced _ le_rfl .refl)
  | disableInterface iface =>
    obtain rfl := Option.some.inj h
    exact .reduced trivial (disableInterface_reduced iface)
  | disable =>
    obtain rfl := Option.some.inj h
    exact .reduced trivial (ledger_disable s ▸ Ledger.Reduced.refl.clear)

/-! ### Runs -/

/-- The removals of a session and the loops, on the sessions in their order. -/
structure RemovesInOrder (s : Table Address Interface) : Prop where
  removeSession : ∀ i < s.numSessions, (s.removeSession i).sessions.list =
    s.sessions.list.eraseIdx i
  removeAuthentication : ∀ r, (s.removeAuthentication r).2.sessions.list = s.sessions.list ∨
    ∃ i x, s.sessions.list[i]? = some x ∧ isOf r x ∧ ¬ x.isPostUploading ∧
      (s.removeAuthentication r).2.sessions.list = s.sessions.list.eraseIdx i
  checkSessions : ∀ now, (s.checkSessions now).sessions.list =
    s.sessions.list.filter fun x => now - x.lastQueryTime ≤ httpSessionTimeout
  disableInterface : ∀ iface, (s.disableInterface iface).sessions.list =
    s.sessions.list.filter fun x => iface ≠ x.iface

lemma removesInOrder (s : Table Address Interface) : s.RemovesInOrder where
  removeSession := fun i hi => removeSession_list hi
  removeAuthentication := by
    intro r
    rw [removeAuthentication]
    cases hfind : s.sessions.findLast (isOf r) with
    | none => exact Or.inl rfl
    | some i =>
      obtain ⟨hi, hof⟩ := findLast_some hfind
      simp only
      split_ifs with huploading
      · exact Or.inl rfl
      · exact Or.inr ⟨i, _, getElem?_list hi, hof, huploading, removeSession_list hi⟩
  checkSessions := by
    intro now
    rw [checkSessions, removeWhere_all]
    apply List.filter_congr
    intro x _
    rw [← decide_not, decide_eq_decide]
    exact UInt32.not_lt
  disableInterface := by
    intro iface
    have hloop : (s.removeWhere (fun x => iface = x.iface) s.numSessions).sessions.list =
        s.sessions.list.filter fun x => iface ≠ x.iface := by
      rw [removeWhere_all]
      exact List.filter_congr fun x _ => (decide_not ..).symm
    rw [disableInterface, ← hloop]
    split_ifs with hempty
    · have hnone := (length_list _).trans hempty
      rw [List.length_eq_zero_iff.mp hnone]
      rfl
    · rfl

lemma step_kept {e : Event Address Interface} (h : s.Kept) (hstep : s.step e = some t) : t.Kept :=
    by
  obtain ⟨hsound, hcount⟩ := h
  rw [numSessions_eq] at hcount
  rw [Kept, numSessions_eq]
  cases step_outcome hstep with
  | reduced _ hreduced => exact ⟨hreduced.sound hsound, hreduced.sublist.length_le.trans hcount⟩
  | created ip key hroom _ hreduced _ =>
    refine ⟨hreduced.sound (hsound.create ip key), hreduced.sublist.length_le.trans ?_⟩
    rw [numSessions_eq] at hroom
    rw [Ledger.create, List.length_append]
    exact hroom

/-- Where the sessions are distinct, the condition is what they need to stay so. -/
lemma step_distinct {e : Event Address Interface} (h : s.Distinct) (hstep : s.step e = some t) :
    t.Distinct ↔ s.Fresh e := by
  rw [distinct_iff] at h ⊢
  cases step_outcome hstep with
  | reduced hfresh hreduced => exact iff_of_true (h.sublist hreduced.sublist) hfresh
  | created ip key _ hnew hreduced hkept =>
    rw [← hnew, ← Ledger.distinct_create h]
    by_cases hfresh : s.Fresh e
    · have hdistinct := (Ledger.distinct_create h).mpr (hnew.mpr hfresh)
      exact iff_of_true (hdistinct.sublist hreduced.sublist) hdistinct
    · rw [hkept hfresh]

/-- In every state there are no more sessions than places, and a request is let in where a session
with its address and key was created and not removed since. The sessions are distinct all along
where every key that is drawn and taken is new, and where a session without a key is asked for by
a client that has none. -/
theorem session_table (slot : ℕ → HttpSession Address Interface) (events
    : List (Event Address Interface)) :
    (∀ s ∈ run next (some (start slot)) events, s.numSessions ≤ maxHttpSessions ∧ s.RemovesInOrder ∧
      ∀ r now, (s.checkAuthenticated r now).1 = true ↔
        ∃ n, s.created[n]? = some (r.remoteIP, r.sessionKey) ∧ n ∉ s.removed) ∧
    (Always next (fun s => ∀ t ∈ s, t.Distinct) (some (start slot)) events ↔
      Along next (fun s e => ∀ t ∈ s, t.Fresh e) (some (start slot)) events) := by
  have hkept : ∀ s ∈ run next (some (start slot)) events, s.Kept := by
    refine invariant (P := fun s => ∀ t ∈ s, Kept t) ?_ ?_ events
    · intro s hs
      rw [← Option.some.inj hs]
      exact kept_start slot
    · intro s e hs t ht
      obtain ⟨s, rfl, hstep⟩ := Option.bind_eq_some_iff.mp ht
      exact step_kept (hs s rfl) hstep
  refine ⟨fun s hs => ⟨(hkept s hs).2, removesInOrder s, checkAuthenticated_created (hkept s hs)⟩,
    ?_⟩
  apply always_iff_along (I := fun _ => True) trivial fun _ _ _ => trivial
  · intro s hs
    rw [← Option.some.inj hs]
    exact ⟨List.Pairwise.nil, List.Pairwise.nil⟩
  · intro s e _ hs
    cases s with
    | none => exact iff_of_true nofun nofun
    | some s =>
      have hdistinct := hs s rfl
      cases hstep : s.step e with
      | none =>
        have hend : next (some s) e = none := hstep
        rw [hend]
        exact iff_of_true nofun fun t ht => Option.some.inj ht ▸ step_none hstep
      | some t =>
        have hend : next (some s) e = some t := hstep
        rw [hend]
        simpa using step_distinct hdistinct hstep

/-- Two clients get the same key where the same number is drawn twice, and a client that sends a
key that is no longer known gets a second session without a key. -/
theorem not_session_table :
    (¬ ∀ (slot : ℕ → HttpSession ℕ Unit) (events : List (Event ℕ Unit)),
      ∀ s ∈ run next (some (start slot)) events,
        s.sessions.list.Pairwise fun x y => x.key ≠ noSessionKey → x.key ≠ y.key) ∧
    ¬ ∀ (slot : ℕ → HttpSession ℕ Unit) (events : List (Event ℕ Unit)),
      ∀ s ∈ run next (some (start slot)) events, s.sessions.list.Pairwise fun x y =>
        x.key = noSessionKey → y.key = noSessionKey → x.ip ≠ y.ip := by
  constructor
  · intro h
    have htwo := h (fun _ => ⟨0, 0, (), 0, 0, false, 0⟩)
      [.connect ⟨1, 0, (), 0⟩ (some true) true [5] fun _ => 0,
        .connect ⟨2, 0, (), 0⟩ (some true) true [5] fun _ => 0] _ rfl
    exact absurd htwo (by decide)
  · intro h
    have htwo := h (fun _ => ⟨0, 0, (), 0, 0, false, 0⟩)
      [.request ⟨1, 0, (), 0⟩ true false fun _ => 0,
        .request ⟨1, 0, (), 7⟩ true false fun _ => 0] _ rfl
    exact absurd htwo (by decide)

end Table

end RepRapFirmware.Networking.HttpSessions
