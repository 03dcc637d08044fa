import SdrServer.RtlTcp.Tenancy

namespace SdrServer
namespace RtlTcp

-- the float arithmetic of the DC correction: (float)s, 0.998f * avg + 0.002f * s and
-- (int32_t)(s - avg)
structure DcArithmetic (F : Type) where
  zero : F
  ofInt16 : Int16 → F
  average : F → F → F
  residue : F → F → Int32

def u8bufMax : Nat := 262144

def clamp (c : Int32) : Int16 :=
  if c > 32767 then 32767 else if c < -32768 then -32768 else c.toInt16

def toUint8 (sample : Int16) : UInt8 := ((sample.toInt32 >>> 8) + 128).toUInt32.toUInt8

-- the samples and the averages after the loop; a last sample without its pair stays as it is
def removeDc {F : Type} (f : DcArithmetic F) : F → F → List Int16 → List Int16 × F × F
  | dcAvgI, dcAvgQ, i :: q :: samples =>
    let dcAvgI := f.average dcAvgI (f.ofInt16 i)
    let dcAvgQ := f.average dcAvgQ (f.ofInt16 q)
    let rest := removeDc f dcAvgI dcAvgQ samples
    (clamp (f.residue (f.ofInt16 i) dcAvgI) :: clamp (f.residue (f.ofInt16 q) dcAvgQ) :: rest.1,
      rest.2)
  | dcAvgI, dcAvgQ, samples => (samples, dcAvgI, dcAvgQ)

-- a converted byte with the place it has in g_u8buf and the number of the callback
structure Iq where
  value : UInt8
  buffer : Nat
  index : Nat
  deriving DecidableEq, Repr

inductive OutByte where
  | header (byte : UInt8)
  | iq (byte : Iq)
  deriving DecidableEq, Repr

-- RTL0, the tuner type and the number of gain steps
def magicHeader : List UInt8 := [82, 84, 76, 48, 0, 0, 0, 5, 0, 0, 0, 29]

structure Session (F : Type) where
  slots : Slots
  dcAvgI : F
  dcAvgQ : F
  u8buf : List UInt8
  -- what every callback so far has put into g_u8buf
  converted : List (List UInt8)
  stream : Nat → List OutByte

inductive SessionEvent where
  | restart
  | callback (samples : List Int16)
  | slots (event : SlotEvent)

def tagged (buffer : Nat) (u8buf : List UInt8) : List OutByte :=
  u8buf.mapIdx fun index value => .iq ⟨value, buffer, index⟩

-- what the calls of send() take
def sentBytes (u8buf : List OutByte) : Nat → List Sent → List OutByte
  | sent, .bytes r :: results => (u8buf.drop sent).take r ++ sentBytes u8buf (sent + r) results
  | _, _ => []

namespace Session

variable {F : Type}

def start (f : DcArithmetic F) : Session F where
  slots := Slots.start
  dcAvgI := f.zero
  dcAvgQ := f.zero
  u8buf := []
  converted := []
  stream := fun _ => []

-- bytes sent to a descriptor reach the client that has it open
def deliver (s : Session F) (sock : Nat) (bytes : List OutByte) (k : Nat) : List OutByte :=
  match s.slots.clients[k]? with
  | some c => if c.thread ≠ .ended ∧ c.sock = sock then s.stream k ++ bytes else s.stream k
  | none => s.stream k

def sendTo (s : Session F) (results : List Sent) : Nat → List OutByte :=
  match s.slots.broadcast with
  | none => s.stream
  | some b =>
    match s.slots.sock b.i with
    | none => s.stream
    | some sock => s.deliver sock (sentBytes (tagged (s.converted.length - 1) s.u8buf) 0 results)

def placed (s : Session F) (slots : Slots) (k : Nat) : List OutByte :=
  if s.slots.clients.length ≤ k ∧ k < slots.clients.length then magicHeader.map .header
  else s.stream k

def step (f : DcArithmetic F) (s : Session F) : SessionEvent → Option (Session F)
  | .restart =>
    match s.slots.broadcast with
    | none => some { s with dcAvgI := f.zero, dcAvgQ := f.zero }
    | some _ => none
  | .callback samples =>
    let (corrected, dcAvgI, dcAvgQ) := removeDc f s.dcAvgI s.dcAvgQ samples
    let u8buf := (corrected.take u8bufMax).map toUint8
    (s.slots.step (.lockClients u8buf.length)).map fun slots =>
      { s with slots, dcAvgI, dcAvgQ, u8buf, converted := s.converted ++ [u8buf] }
  | .slots (.lockClients _) => none
  | .slots (.send results) =>
    (s.slots.step (.send results)).map fun slots => { s with slots, stream := s.sendTo results }
  | .slots (.place headerWritten) =>
    (s.slots.step (.place headerWritten)).map fun slots => { s with slots, stream := s.placed slots }
  | .slots event => (s.slots.step event).map fun slots => { s with slots }

end Session

-- one sample as it lies in g_u8buf
structure Pair where
  i : UInt8
  q : UInt8
  buffer : Nat
  index : Nat
  deriving DecidableEq, Repr

namespace Pair

def bytes (p : Pair) : List OutByte :=
  [.iq ⟨p.i, p.buffer, 2 * p.index⟩, .iq ⟨p.q, p.buffer, 2 * p.index + 1⟩]

def Before (p p' : Pair) : Prop := p.buffer < p'.buffer ∨ p.buffer = p'.buffer ∧ p.index < p'.index

structure From (converted : List (List UInt8)) (p : Pair) : Prop where
  i : (converted[p.buffer]?).bind (·[2 * p.index]?) = some p.i
  q : (converted[p.buffer]?).bind (·[2 * p.index + 1]?) = some p.q

end Pair

structure Whole (converted : List (List UInt8)) (stream : List OutByte) (pairs : List Pair) :
    Prop where
  stream : stream = magicHeader.map .header ++ pairs.flatMap Pair.bytes
  order : pairs.Pairwise Pair.Before
  origin : ∀ p ∈ pairs, p.From converted

def Aligned {F : Type} (s : Session F) : Prop :=
  ∀ k < s.slots.clients.length, ∃ pairs, Whole s.converted (s.stream k) pairs

def accepted : List Sent → Nat
  | .bytes r :: results => r + accepted results
  | _ => 0

theorem sentBytes_eq (u8buf : List OutByte) (sent : Nat) (results : List Sent) :
    sentBytes u8buf sent results = (u8buf.drop sent).take (accepted results) := by
  induction results generalizing sent with
  | nil => rfl
  | cons result results ih =>
    cases result with
    | bytes r => rw [sentBytes, accepted, ih, List.take_add, List.drop_drop]
    | again => rfl
    | error => rfl
    | zero => rfl

theorem accepted_le {nSamples sent : Nat} {results : List Sent} {kept : Bool}
    (h : sendLoop nSamples sent results = some kept) (hsent : sent ≤ nSamples) :
    sent + accepted results ≤ nSamples := by
  induction results generalizing sent with
  | nil => exact hsent
  | cons result results ih =>
    cases result with
    | bytes r =>
      rw [sendLoop] at h
      split at h
      · split at h
        · rename_i hr
          have hrest := ih h (by omega)
          rw [accepted]
          omega
        · cases h
      · cases h
    | again => exact hsent
    | error => exact hsent
    | zero => exact hsent

def sentPairs (buffer : Nat) (u8buf : List UInt8) (n : Nat) : List Pair :=
  (List.range n).map fun j => ⟨u8buf.getD (2 * j) 0, u8buf.getD (2 * j + 1) 0, buffer, j⟩

theorem getD_get {u8buf : List UInt8} {i : Nat} (h : i < u8buf.length) :
    u8buf[i]? = some (u8buf.getD i 0) := by
  rw [List.getD_eq_getElem?_getD, List.getElem?_eq_getElem h, Option.getD_some]

theorem tagged_take {buffer n : Nat} {u8buf : List UInt8} (h : 2 * n ≤ u8buf.length) :
    (tagged buffer u8buf).take (2 * n) = (sentPairs buffer u8buf n).flatMap Pair.bytes := by
  induction n with
  | zero => rfl
  | succ n ih =>
    have hi : u8buf[2 * n]? = some (u8buf.getD (2 * n) 0) := getD_get (by omega)
    have hq : u8buf[2 * n + 1]? = some (u8buf.getD (2 * n + 1) 0) := getD_get (by omega)
    have hlast : ((tagged buffer u8buf).drop (2 * n)).take 2 =
        [.iq ⟨u8buf.getD (2 * n) 0, buffer, 2 * n⟩,
          .iq ⟨u8buf.getD (2 * n + 1) 0, buffer, 2 * n + 1⟩] := by
      apply List.ext_getElem?
      intro j
      match j with
      | 0 =>
        rw [List.getElem?_take_of_lt (by omega), List.getElem?_drop, tagged, List.getElem?_mapIdx,
          Nat.add_zero, hi]
        rfl
      | 1 =>
        rw [List.getElem?_take_of_lt (by omega), List.getElem?_drop, tagged, List.getElem?_mapIdx,
          hq]
        rfl
      | j + 2 => rw [List.getElem?_take_eq_none (by omega)]; rfl
    rw [Nat.mul_succ, List.take_add, ih (by omega), hlast, sentPairs, sentPairs, List.range_succ,
      List.map_append, List.flatMap_append]
    rfl

theorem sentPairs_order (buffer n : Nat) (u8buf : List UInt8) :
    (sentPairs buffer u8buf n).Pairwise Pair.Before := by
  rw [sentPairs, List.pairwise_map]
  exact List.pairwise_lt_range.imp fun hlt => Or.inr ⟨rfl, hlt⟩

theorem sentPairs_mem {buffer n : Nat} {u8buf : List UInt8} {p : Pair}
    (h : p ∈ sentPairs buffer u8buf n) (hn : 2 * n ≤ u8buf.length) :
    p.buffer = buffer ∧ u8buf[2 * p.index]? = some p.i ∧ u8buf[2 * p.index + 1]? = some p.q := by
  obtain ⟨j, hj, rfl⟩ := List.mem_map.mp h
  have hlt := List.mem_range.mp hj
  exact ⟨rfl, getD_get (by dsimp only; omega), getD_get (by dsimp only; omega)⟩

theorem flatMap_bytes_length (pairs : List Pair) :
    (pairs.flatMap Pair.bytes).length = 2 * pairs.length := by
  induction pairs with
  | nil => rfl
  | cons p pairs ih =>
    rw [List.flatMap_cons, List.length_append, ih, List.length_cons]
    simp only [Pair.bytes, List.length_cons, List.length_nil]
    omega

theorem Whole.even {converted : List (List UInt8)} {stream : List OutByte} {pairs : List Pair}
    (h : Whole converted stream pairs) : stream.length % 2 = 0 := by
  rw [h.stream, List.length_append, flatMap_bytes_length, List.length_map]
  simp [magicHeader]

theorem Whole.mem_buffer {converted : List (List UInt8)} {stream : List OutByte}
    {pairs : List Pair} (h : Whole converted stream pairs) {p : Pair} (hp : p ∈ pairs) :
    .iq ⟨p.i, p.buffer, 2 * p.index⟩ ∈ stream := by
  rw [h.stream]
  apply List.mem_append_right
  exact List.mem_flatMap.mpr ⟨p, hp, List.mem_cons_self⟩

theorem Whole.append {converted : List (List UInt8)} {stream : List OutByte} {pairs : List Pair}
    (h : Whole converted stream pairs) {u8buf : List UInt8} {n : Nat}
    (hbehind : ∀ byte, .iq byte ∈ stream → byte.buffer + 1 < converted.length)
    (hlast : converted[converted.length - 1]? = some u8buf) (hn : 2 * n ≤ u8buf.length) :
    Whole converted (stream ++ (tagged (converted.length - 1) u8buf).take (2 * n))
      (pairs ++ sentPairs (converted.length - 1) u8buf n) where
  stream := by
    rw [tagged_take hn, List.flatMap_append, ← List.append_assoc, ← h.stream]
  order := by
    refine List.pairwise_append.mpr ⟨h.order, sentPairs_order _ _ _, ?_⟩
    intro p hp p' hp'
    have hold := hbehind _ (h.mem_buffer hp)
    obtain ⟨hnew, -⟩ := sentPairs_mem hp' hn
    left
    simp only at hold
    omega
  origin := by
    intro p hp
    rcases List.mem_append.mp hp with hold | hnew
    · exact h.origin p hold
    · obtain ⟨hbuffer, hi, hq⟩ := sentPairs_mem hnew hn
      exact ⟨by rw [hbuffer, hlast]; exact hi, by rw [hbuffer, hlast]; exact hq⟩

theorem Whole.later {converted : List (List UInt8)} {stream : List OutByte} {pairs : List Pair}
    (h : Whole converted stream pairs) (u8buf : List UInt8) :
    Whole (converted ++ [u8buf]) stream pairs where
  stream := h.stream
  order := h.order
  origin := by
    intro p hp
    obtain ⟨hi, hq⟩ := h.origin p hp
    obtain ⟨u8, hu8, -⟩ := Option.bind_eq_some_iff.mp hi
    obtain ⟨hlt, -⟩ := List.getElem?_eq_some_iff.mp hu8
    constructor
    · rw [List.getElem?_append_left hlt]
      exact hi
    · rw [List.getElem?_append_left hlt]
      exact hq

theorem Ages.refl (c : Client) : Ages c c := ⟨rfl, rfl, id, id⟩

-- an open descriptor in a slot is that of the one client that has it open
structure Live (s : Slots) : Prop where
  distinct : ∀ (j k : Nat) c d, s.clients[j]? = some c → s.clients[k]? = some d → j ≠ k →
    c.thread ≠ .ended → d.thread ≠ .ended → c.sock ≠ d.sock
  fresh : ∀ csock, s.main = .accepted csock →
    ∀ (k : Nat) c, s.clients[k]? = some c → c.thread ≠ .ended → c.sock ≠ csock
  held : ∀ i sock, s.sock i = some sock → ∃ (k : Nat) (c : Client), s.clients[k]? = some c ∧
    c.thread ≠ .ended ∧ c.slot = i ∧ c.sock = sock
  placed : ∀ k, s.main = .placed k → ∃ c, s.clients[k]? = some c ∧ c.thread = .notCreated

section Live

variable {s t : Slots}

theorem Live.ages (h : Live s)
    (hages : ∀ (k : Nat) d, t.clients[k]? = some d → ∃ c, s.clients[k]? = some c ∧ Ages c d)
    (hheld : ∀ i sock, t.sock i = some sock → s.sock i = some sock ∧
      ∀ (k : Nat) c, s.clients[k]? = some c → c.thread ≠ .ended → c.slot = i →
        ∃ d, t.clients[k]? = some d ∧ d.thread ≠ .ended ∧ Ages c d)
    (hfresh : ∀ csock, t.main = .accepted csock → s.main = .accepted csock)
    (hplaced : ∀ k, t.main = .placed k → ∃ c, t.clients[k]? = some c ∧ c.thread = .notCreated) :
    Live t where
  distinct := Distinct.ages h.distinct hages
  fresh := by
    intro csock hmain
    exact Fresh.ages (h.fresh csock (hfresh csock hmain)) hages
  held := by
    intro i sock hi
    obtain ⟨hold, hlive⟩ := hheld i sock hi
    obtain ⟨k, c, hk, hc, hci, hcs⟩ := h.held i sock hold
    obtain ⟨d, hd, hopen, hcd⟩ := hlive k c hk hc hci
    exact ⟨k, d, hd, hopen, hcd.slot.trans hci, hcd.sock.trans hcs⟩
  placed := hplaced

-- the clients and the slots stay as they are
theorem Live.same (h : Live s) (hclients : t.clients = s.clients) (hsock : t.sock = s.sock)
    (hmain : t.main = s.main ∨ t.main = .accepting) : Live t := by
  apply h.ages
  · intro k d hk
    exact ⟨d, hclients ▸ hk, Ages.refl d⟩
  · intro i sock hi
    exact ⟨hsock ▸ hi, fun k c hk hc _ => ⟨c, hclients ▸ hk, hc, Ages.refl c⟩⟩
  · intro csock hcsock
    rcases hmain with hmain | hmain
    · exact hmain ▸ hcsock
    · rw [hmain] at hcsock
      cases hcsock
  · intro k hk
    rcases hmain with hmain | hmain
    · rw [hclients]
      exact h.placed k (hmain ▸ hk)
    · rw [hmain] at hk
      cases hk

theorem live_place {csock slot : Nat} (h : Live s) (hmain : s.main = .accepted csock) :
    Live
      { s.fill slot (some csock) with
        clients := s.clients ++ [⟨slot, csock, .notCreated, false⟩]
        main := .placed s.clients.length } where
  distinct := Distinct.append h.distinct (h.fresh csock hmain)
  fresh := by
    intro csock' hmain'
    cases hmain'
  held := by
    intro i sock hi
    rcases filled_some hi with ⟨rfl, rfl⟩ | hi
    · exact ⟨_, _, List.getElem?_concat_length, by simp, rfl, rfl⟩
    · obtain ⟨k, c, hk, hc, hci, hcs⟩ := h.held i sock hi
      obtain ⟨hbound, -⟩ := List.getElem?_eq_some_iff.mp hk
      exact ⟨k, c, (List.getElem?_append_left hbound).trans hk, hc, hci, hcs⟩
  placed := by
    intro k hk
    obtain rfl := MainPc.placed.inj hk
    exact ⟨_, List.getElem?_concat_length, rfl⟩

theorem live_setThread (k : Nat) {thread : CmdThread} (hthread : thread ≠ .ended) {j : Nat}
    {d : Client} (hj : s.clients[j]? = some d) (hd : d.thread ≠ .ended) :
    ∃ e, (s.clients.modify k fun c => { c with thread })[j]? = some e ∧ e.thread ≠ .ended ∧
      Ages d e := by
  have he : (s.clients.modify k fun c => { c with thread })[j]? =
      some (if k = j then { d with thread } else d) := by
    rw [List.getElem?_modify, hj]
    rfl
  refine ⟨_, he, ?_, ?_⟩
  · split
    · exact hthread
    · exact hd
  · split
    · exact ⟨rfl, rfl, fun _ => hd, id⟩
    · exact Ages.refl d

theorem live_step {e : SlotEvent} (hs : Live s) (h : s.step e = some t) : Live t := by
  cases Slots.step_acts h with
  | accept _ hunused =>
    refine ⟨hs.distinct, ?_, hs.held, by simp⟩
    intro csock' hmain
    obtain rfl := MainPc.accepted.inj hmain
    exact fresh_of_unused hunused
  | place hmain => exact live_place hs hmain
  | reject => exact hs.same rfl rfl (Or.inr rfl)
  | createThread hmain =>
    obtain ⟨c, hk, hc⟩ := hs.placed _ hmain
    exact hs.ages (fun _ _ hj => setThread_ages hk (by simp [hc]) hj)
      (fun _ _ hi => ⟨hi, fun _ _ hj hd _ => live_setThread _ (by simp) hj hd⟩) (by simp) (by simp)
  | noThread => exact hs.same rfl rfl (Or.inr rfl)
  | recvEnds hk hc =>
    exact hs.ages (fun _ _ hj => setThread_ages hk (by simp [hc]) hj)
      (fun _ _ hi => ⟨hi, fun _ _ hj hd _ => live_setThread _ (by simp) hj hd⟩) (fun _ hm => hm)
      fun j hm => setThread_placed hk (by simp [hc]) (hs.placed j hm)
  | @exitThread k c hk hc =>
    refine hs.ages (fun _ _ hj => setThread_ages hk (by simp [hc]) hj) ?_ (fun _ hm => hm)
      fun j hm => setThread_placed hk (by simp [hc]) (hs.placed j hm)
    intro i sock hi
    obtain ⟨hne, hi⟩ := cleared_some hi
    refine ⟨hi, ?_⟩
    intro j d hj hd hdi
    have hkj : k ≠ j := by
      rintro rfl
      obtain rfl : c = d := Option.some.inj (hk.symm.trans hj)
      exact hne hdi.symm
    exact ⟨d, (List.getElem?_modify_ne _ _ hkj).trans hj, hd, Ages.refl d⟩
  | lockClients => exact hs.same rfl rfl (Or.inl rfl)
  | skip => exact hs.same rfl rfl (Or.inl rfl)
  | send => exact hs.same rfl rfl (Or.inl rfl)
  | @sendFails b sock =>
    refine hs.ages ?_ ?_ (fun _ hm => hm) fun j hm => failSend_placed sock (hs.placed j hm)
    · intro k d hk
      obtain ⟨c, hc, rfl⟩ := Option.map_eq_some_iff.mp ((List.getElem?_map ..).symm.trans hk)
      exact ⟨c, hc, failSend_ages sock c⟩
    · intro i x hi
      obtain ⟨-, hi⟩ := cleared_some hi
      refine ⟨hi, ?_⟩
      intro k c hk hc _
      refine ⟨c.failSend sock, by rw [List.getElem?_map, hk]; rfl, ?_, failSend_ages sock c⟩
      unfold Client.failSend
      split <;> exact hc
  | unlockClients => exact hs.same rfl rfl (Or.inl rfl)

theorem live_start : Live Slots.start where
  distinct := by simp [Slots.start]
  fresh := by simp [Slots.start]
  held := by simp [Slots.start]
  placed := by simp [Slots.start]

end Live

theorem Whole.buffer_lt {converted : List (List UInt8)} {stream : List OutByte}
    {pairs : List Pair} (h : Whole converted stream pairs) {byte : Iq} (hbyte : .iq byte ∈ stream) :
    byte.buffer < converted.length := by
  rw [h.stream] at hbyte
  rcases List.mem_append.mp hbyte with hheader | hpairs
  · obtain ⟨_, -, hno⟩ := List.mem_map.mp hheader
    cases hno
  · obtain ⟨p, hp, hin⟩ := List.mem_flatMap.mp hpairs
    obtain ⟨u8buf, hbuf, -⟩ := Option.bind_eq_some_iff.mp (h.origin p hp).i
    obtain ⟨hlt, -⟩ := List.getElem?_eq_some_iff.mp hbuf
    simp only [Pair.bytes, List.mem_cons, OutByte.iq.injEq, List.not_mem_nil, or_false] at hin
    rcases hin with rfl | rfl <;> exact hlt

structure Flow {F : Type} (s : Session F) : Prop where
  live : Live s.slots
  current : ∀ b, s.slots.broadcast = some b →
    s.converted[s.converted.length - 1]? = some s.u8buf ∧ b.nSamples = s.u8buf.length
  aligned : Aligned s
  -- who is still to come in this broadcast has nothing of this buffer
  behind : ∀ b, s.slots.broadcast = some b → ∀ (k : Nat) c, s.slots.clients[k]? = some c →
    c.thread ≠ .ended → b.i ≤ c.slot → ∀ byte, .iq byte ∈ s.stream k →
    byte.buffer + 1 < s.converted.length

section Flow

variable {F : Type} {f : DcArithmetic F} {s t : Session F}

theorem Flow.keep (h : Flow s) (hlive : Live t.slots) (hstream : t.stream = s.stream)
    (hconverted : t.converted = s.converted) (hu8buf : t.u8buf = s.u8buf)
    (hages : ∀ (k : Nat) d, t.slots.clients[k]? = some d →
      ∃ c, s.slots.clients[k]? = some c ∧ Ages c d)
    (hbroadcast : ∀ b', t.slots.broadcast = some b' →
      ∃ b, s.slots.broadcast = some b ∧ b.i ≤ b'.i ∧ b'.nSamples = b.nSamples) : Flow t where
  live := hlive
  current := by
    intro b' hb'
    obtain ⟨b, hb, -, hsame⟩ := hbroadcast b' hb'
    rw [hconverted, hu8buf, hsame]
    exact h.current b hb
  aligned := by
    intro k hk
    obtain ⟨c, hc, -⟩ := hages k _ (List.getElem?_eq_getElem hk)
    obtain ⟨hlt, -⟩ := List.getElem?_eq_some_iff.mp hc
    rw [hconverted, hstream]
    exact h.aligned k hlt
  behind := by
    intro b' hb' k d hd hopen hi
    obtain ⟨b, hb, hle, -⟩ := hbroadcast b' hb'
    obtain ⟨c, hc, hcd⟩ := hages k d hd
    rw [hconverted, hstream]
    exact h.behind b hb k c hc (hcd.thread hopen) (hcd.slot ▸ Nat.le_trans hle hi)

theorem Flow.holder (h : Flow s) {b : Broadcast} {sock : Nat} (hsock : s.slots.sock b.i = some sock) :
    ∃ m c, s.slots.clients[m]? = some c ∧ c.thread ≠ .ended ∧ c.slot = b.i ∧ c.sock = sock ∧
      ∀ (k : Nat) d, s.slots.clients[k]? = some d → d.thread ≠ .ended → d.sock = sock → k = m := by
  obtain ⟨m, c, hm, hopen, hslot, hheld⟩ := h.live.held b.i sock hsock
  refine ⟨m, c, hm, hopen, hslot, hheld, ?_⟩
  intro k d hk hd hsame
  exact Classical.byContradiction fun hne =>
    h.live.distinct k m d c hk hm hne hd hopen (hsame.trans hheld.symm)

theorem sendTo_some {b : Broadcast} {sock : Nat} (hb : s.slots.broadcast = some b)
    (hsock : s.slots.sock b.i = some sock) (results : List Sent) :
    s.sendTo results = s.deliver sock
      ((tagged (s.converted.length - 1) s.u8buf).take (accepted results)) := by
  simp only [Session.sendTo, hb, hsock, sentBytes_eq, List.drop_zero]

theorem deliver_other {sock k : Nat} {c : Client} (bytes : List OutByte)
    (hc : s.slots.clients[k]? = some c) (hno : ¬ (c.thread ≠ .ended ∧ c.sock = sock)) :
    s.deliver sock bytes k = s.stream k := by
  simp only [Session.deliver, hc, if_neg hno]

theorem deliver_holder {sock k : Nat} {c : Client} (bytes : List OutByte)
    (hc : s.slots.clients[k]? = some c) (hopen : c.thread ≠ .ended) (hsock : c.sock = sock) :
    s.deliver sock bytes k = s.stream k ++ bytes := by
  simp only [Session.deliver, hc, if_pos (And.intro hopen hsock)]

theorem flow_send {b : Broadcast} {sock : Nat} {results : List Sent} {kept : Bool} (h : Flow s)
    (hb : s.slots.broadcast = some b) (hsock : s.slots.sock b.i = some sock)
    (hloop : sendLoop b.nSamples 0 results = some kept) (heven : accepted results % 2 = 0)
    {slots : Slots} (hlive : Live slots)
    (hages : ∀ (k : Nat) d, slots.clients[k]? = some d →
      ∃ c, s.slots.clients[k]? = some c ∧ Ages c d)
    (hnext : slots.broadcast = some { b with i := b.i + 1, sentTo := b.sentTo ++ [sock] }) :
    Flow { s with slots, stream := s.sendTo results } := by
  obtain ⟨hlast, hlen⟩ := h.current b hb
  have hbound := accepted_le hloop (Nat.zero_le _)
  obtain ⟨m, holder, hm, hopen, hslot, hheld, hunique⟩ := h.holder hsock
  rw [sendTo_some hb hsock]
  constructor
  · exact hlive
  · intro b' hb'
    obtain rfl := Option.some.inj (hnext.symm.trans hb')
    exact ⟨hlast, hlen⟩
  · intro k hk
    obtain ⟨c, hc, -⟩ := hages k _ (List.getElem?_eq_getElem hk)
    obtain ⟨hlt, -⟩ := List.getElem?_eq_some_iff.mp hc
    obtain ⟨pairs, hwhole⟩ := h.aligned k hlt
    by_cases hmine : c.thread ≠ .ended ∧ c.sock = sock
    · obtain rfl := hunique k c hc hmine.1 hmine.2
      obtain rfl : c = holder := Option.some.inj (hc.symm.trans hm)
      dsimp only
      rw [deliver_holder _ hc hmine.1 hmine.2]
      have hhalf : accepted results = 2 * (accepted results / 2) := by omega
      rw [hhalf]
      exact ⟨_, hwhole.append (h.behind b hb k c hc hopen (Nat.le_of_eq hslot.symm)) hlast
        (by omega)⟩
    · dsimp only
      rw [deliver_other _ hc hmine]
      exact ⟨pairs, hwhole⟩
  · intro b' hb' k d hd hd' hi
    obtain rfl := Option.some.inj (hnext.symm.trans hb')
    obtain ⟨c, hc, hcd⟩ := hages k d hd
    rw [hcd.slot] at hi
    simp only at hi
    have hother : ¬ (c.thread ≠ .ended ∧ c.sock = sock) := by
      intro hmine
      obtain rfl := hunique k c hc hmine.1 hmine.2
      obtain rfl : c = holder := Option.some.inj (hc.symm.trans hm)
      omega
    dsimp only
    rw [deliver_other _ hc hother]
    exact h.behind b hb k c hc (hcd.thread hd') (by omega)

theorem odd_send {b : Broadcast} {sock : Nat} {results : List Sent} {kept : Bool} (h : Flow s)
    (hb : s.slots.broadcast = some b) (hsock : s.slots.sock b.i = some sock)
    (hloop : sendLoop b.nSamples 0 results = some kept) (hodd : accepted results % 2 ≠ 0)
    {slots : Slots} (hlen : slots.clients.length = s.slots.clients.length) :
    ¬ Aligned { s with slots, stream := s.sendTo results } := by
  obtain ⟨-, hsize⟩ := h.current b hb
  have hbound := accepted_le hloop (Nat.zero_le _)
  obtain ⟨m, holder, hm, hopen, -, hheld, -⟩ := h.holder hsock
  obtain ⟨hlt, -⟩ := List.getElem?_eq_some_iff.mp hm
  obtain ⟨pairs, hwhole⟩ := h.aligned m hlt
  intro haligned
  obtain ⟨pairs', hwhole'⟩ := haligned m (hlen ▸ hlt)
  have hbefore := hwhole.even
  have hafter := hwhole'.even
  dsimp only at hafter
  rw [sendTo_some hb hsock, deliver_holder _ hm hopen hheld, List.length_append, List.length_take,
    tagged, List.length_mapIdx] at hafter
  omega

theorem step_ages {s t : Slots} {e : SlotEvent} (hs : Live s) (h : s.step e = some t)
    (hplace : ∀ headerWritten, e ≠ .place headerWritten) {k : Nat} {d : Client}
    (hd : t.clients[k]? = some d) : ∃ c, s.clients[k]? = some c ∧ Ages c d := by
  cases Slots.step_acts h with
  | place => exact absurd rfl (hplace true)
  | reject => exact absurd rfl (hplace _)
  | createThread hmain =>
    obtain ⟨c, hk, hc⟩ := hs.placed _ hmain
    exact setThread_ages hk (by simp [hc]) hd
  | recvEnds hk hc => exact setThread_ages hk (by simp [hc]) hd
  | exitThread hk hc => exact setThread_ages hk (by simp [hc]) hd
  | sendFails =>
    obtain ⟨c, hc, rfl⟩ := Option.map_eq_some_iff.mp ((List.getElem?_map ..).symm.trans hd)
    exact ⟨c, hc, failSend_ages _ c⟩
  | _ => exact ⟨d, hd, Ages.refl d⟩

theorem flow_callback {samples : List Int16} (h : Flow s)
    (hstep : s.step f (.callback samples) = some t) : Flow t := by
  obtain ⟨slots, hslots, rfl⟩ := Option.map_eq_some_iff.mp hstep
  have hlive := live_step h.live hslots
  cases Slots.step_acts hslots with
  | lockClients hidle =>
    constructor
    · exact hlive
    · intro b hb
      obtain rfl := Option.some.inj hb
      simp
    · intro k hk
      obtain ⟨pairs, hwhole⟩ := h.aligned k hk
      exact ⟨pairs, hwhole.later _⟩
    · intro b _ k c hc _ _ byte hbyte
      obtain ⟨hlt, -⟩ := List.getElem?_eq_some_iff.mp hc
      obtain ⟨pairs, hwhole⟩ := h.aligned k hlt
      have hbuffer := hwhole.buffer_lt hbyte
      dsimp only
      rw [List.length_append, List.length_singleton]
      omega

theorem flow_place {headerWritten : Bool} (h : Flow s)
    (hstep : s.step f (.slots (.place headerWritten)) = some t) : Flow t := by
  obtain ⟨slots, hslots, rfl⟩ := Option.map_eq_some_iff.mp hstep
  have hlive := live_step h.live hslots
  cases Slots.step_acts hslots with
  | @place csock slot _ hidle =>
    constructor
    · exact hlive
    · intro b hb
      exact absurd (hidle.symm.trans hb) (by simp)
    · intro k hk
      simp only [List.length_append, List.length_singleton] at hk
      by_cases hold : k < s.slots.clients.length
      · obtain ⟨pairs, hwhole⟩ := h.aligned k hold
        refine ⟨pairs, ?_⟩
        dsimp only
        rw [Session.placed, if_neg fun hnew => Nat.not_le_of_lt hold hnew.1]
        exact hwhole
      · refine ⟨[], ?_, List.Pairwise.nil, by simp⟩
        dsimp only
        rw [Session.placed, if_pos ⟨Nat.le_of_not_lt hold, by simpa using hk⟩]
        simp
    · intro b hb
      exact absurd (hidle.symm.trans hb) (by simp)
  | reject =>
    have hstream : s.placed { s.slots with main := .accepting } = s.stream := by
      funext k
      exact if_neg fun hnew => Nat.not_lt_of_le hnew.1 hnew.2
    rw [hstream]
    exact h.keep hlive rfl rfl rfl (fun _ d hd => ⟨d, hd, Ages.refl d⟩)
      fun b hb => ⟨b, hb, Nat.le_refl _, rfl⟩

-- an even number of bytes of the buffer goes out
def EvenSend : SessionEvent → Prop
  | .slots (.send results) => accepted results % 2 = 0
  | _ => True

theorem flow_sends {results : List Sent} (h : Flow s) (heven : accepted results % 2 = 0)
    (hstep : s.step f (.slots (.send results)) = some t) : Flow t := by
  obtain ⟨slots, hslots, rfl⟩ := Option.map_eq_some_iff.mp hstep
  have hlive := live_step h.live hslots
  have hages : ∀ (k : Nat) d, slots.clients[k]? = some d →
      ∃ c, s.slots.clients[k]? = some c ∧ Ages c d :=
    fun _ _ hd => step_ages h.live hslots (by simp) hd
  cases Slots.step_acts hslots with
  | @skip b hb hempty =>
    have hstream : s.sendTo [] = s.stream := by simp only [Session.sendTo, hb, hempty]
    rw [hstream]
    refine h.keep hlive rfl rfl rfl hages ?_
    intro b' hb'
    obtain rfl := Option.some.inj hb'
    exact ⟨b, hb, Nat.le_succ _, rfl⟩
  | send hb hsock hloop => exact flow_send h hb hsock hloop heven hlive hages rfl
  | sendFails hb hsock hloop => exact flow_send h hb hsock hloop heven hlive hages rfl

theorem flow_slots {e : SlotEvent} (h : Flow s)
    (hstep : (s.slots.step e).map (fun slots => { s with slots }) = some t)
    (hplace : ∀ headerWritten, e ≠ .place headerWritten) (hsend : ∀ results, e ≠ .send results)
    (hlock : ∀ nSamples, e ≠ .lockClients nSamples) : Flow t := by
  obtain ⟨slots, hslots, rfl⟩ := Option.map_eq_some_iff.mp hstep
  refine h.keep (live_step h.live hslots) rfl rfl rfl
    (fun _ _ hd => step_ages h.live hslots hplace hd) ?_
  intro b' hb'
  cases Slots.step_acts hslots with
  | lockClients => exact absurd rfl (hlock _)
  | skip => exact absurd rfl (hsend _)
  | send => exact absurd rfl (hsend _)
  | sendFails => exact absurd rfl (hsend _)
  | unlockClients => cases hb'
  | _ => exact ⟨b', hb', Nat.le_refl _, rfl⟩

theorem flow_step {e : SessionEvent} (h : Flow s) (heven : EvenSend e)
    (hstep : s.step f e = some t) : Flow t := by
  cases e with
  | restart =>
    simp only [Session.step] at hstep
    split at hstep
    · obtain rfl := Option.some.inj hstep
      exact h.keep h.live rfl rfl rfl (fun _ d hd => ⟨d, hd, Ages.refl d⟩)
        fun b hb => ⟨b, hb, Nat.le_refl _, rfl⟩
    · cases hstep
  | callback samples => exact flow_callback h hstep
  | slots event =>
    cases event with
    | lockClients => cases hstep
    | send => exact flow_sends h heven hstep
    | place => exact flow_place h hstep
    | _ => exact flow_slots h hstep (by simp) (by simp) (by simp)

theorem not_aligned_of_odd {e : SessionEvent} (h : Flow s) (hodd : ¬ EvenSend e)
    (hstep : s.step f e = some t) : ¬ Aligned t := by
  cases e with
  | slots event =>
    cases event with
    | send results =>
      obtain ⟨slots, hslots, rfl⟩ := Option.map_eq_some_iff.mp hstep
      cases Slots.step_acts hslots with
      | skip => exact absurd rfl hodd
      | send hb hsock hloop => exact odd_send h hb hsock hloop hodd rfl
      | sendFails hb hsock hloop => exact odd_send h hb hsock hloop hodd (by simp)
    | _ => exact absurd trivial hodd
  | _ => exact absurd trivial hodd

end Flow

theorem flow_start {F : Type} (f : DcArithmetic F) : Flow (Session.start f) where
  live := live_start
  current := by simp [Session.start, Slots.start]
  aligned := by simp [Aligned, Session.start, Slots.start]
  behind := by simp [Session.start, Slots.start]

theorem samples_aligned {F : Type} (f : DcArithmetic F) {s : Session F} {es : List SessionEvent}
    (h : Transition.run (Session.step f) (Session.start f) es = some s) :
    Transition.Throughout (Session.step f) Aligned (Session.start f) es ↔ ∀ e ∈ es, EvenSend e :=
  (Transition.throughout_iff (fun _ hs => hs.aligned) (fun _ _ _ => flow_step)
    (fun _ _ _ => not_aligned_of_odd) (flow_start f) h).trans (Transition.along_forall h)

-- the correction in whole numbers; it agrees with the one in floats where all samples are 0
def wholeNumbers : DcArithmetic Int32 where
  zero := 0
  ofInt16 := Int16.toInt32
  average avg s := (998 * avg + 2 * s) / 1000
  residue s avg := s - avg

def broadcastTo (samples : List Int16) (results : List Sent) : List SessionEvent :=
  [.callback samples, .slots (.send results), .slots (.send []), .slots (.send []),
    .slots (.send []), .slots .unlockClients]

theorem samples_aligned_slow : ∃ s,
    Transition.run (Session.step wholeNumbers) (Session.start wholeNumbers)
        ((connect 5).map .slots ++ broadcastTo [0, 0, 0, 0] [.bytes 1, .bytes 1, .again] ++
          broadcastTo [0, 0] [.bytes 2]) = some s ∧
      Transition.Throughout (Session.step wholeNumbers) Aligned (Session.start wholeNumbers)
        ((connect 5).map .slots ++ broadcastTo [0, 0, 0, 0] [.bytes 1, .bytes 1, .again] ++
          broadcastTo [0, 0] [.bytes 2]) := by
  have hrun : (Transition.run (Session.step wholeNumbers) (Session.start wholeNumbers)
      ((connect 5).map .slots ++ broadcastTo [0, 0, 0, 0] [.bytes 1, .bytes 1, .again] ++
        broadcastTo [0, 0] [.bytes 2])).isSome := by decide
  have hsome := (Option.some_get hrun).symm
  refine ⟨_, hsome, (samples_aligned wholeNumbers hsome).mpr ?_⟩
  simp [connect, broadcastTo, EvenSend, accepted]

theorem samples_swapped : ∃ s,
    Transition.run (Session.step wholeNumbers) (Session.start wholeNumbers)
        ((connect 5).map .slots ++ broadcastTo [0, 0, 0, 0] [.bytes 3, .again] ++
          broadcastTo [0, 0] [.bytes 2]) = some s ∧
      ((s.stream 0).drop 12)[3]? = some (.iq ⟨128, 1, 0⟩) ∧ ¬ Aligned s := by
  have hrun : (Transition.run (Session.step wholeNumbers) (Session.start wholeNumbers)
      ((connect 5).map .slots ++ broadcastTo [0, 0, 0, 0] [.bytes 3, .again] ++
        broadcastTo [0, 0] [.bytes 2])).map
        (fun s => (s.slots.clients.length, (s.stream 0).length, ((s.stream 0).drop 12)[3]?)) =
      some (1, 17, some (.iq ⟨128, 1, 0⟩)) := by decide
  obtain ⟨s, hs, hshape⟩ := Option.map_eq_some_iff.mp hrun
  obtain ⟨hclients, hrest⟩ := Prod.mk.inj hshape
  obtain ⟨hlen, hbyte⟩ := Prod.mk.inj hrest
  refine ⟨s, hs, hbyte, ?_⟩
  intro haligned
  obtain ⟨pairs, hwhole⟩ := haligned 0 (by omega)
  have heven := hwhole.even
  rw [hlen] at heven
  cases heven

end RtlTcp
end SdrServer
