import SdrServer.Foundation.Transition
import SdrServer.Server.Wire

namespace SdrServer
namespace Commands

open Partial (Result Read readLoop)
open Wire (MessageHeader)

inductive Outcome where
  | disconnected
  | shutdown
  deriving DecidableEq, Repr

-- the loop of tcp_worker inside read_struct: its header, what recv still has to fill of it and
-- what the client has sent and recv has not taken yet
structure TcpWorker where
  header : List UInt8
  left : Nat
  stream : List UInt8
  outcome : Option Outcome
  deriving DecidableEq, Repr

def start (header : List UInt8) (stream : List UInt8) : TcpWorker :=
  ⟨header, Wire.sizeofMessageHeader, stream, none⟩

def afterRead (stream header : List UInt8) (code : Int32) : TcpWorker :=
  let next := start header stream
  -- a read timeout
  if code < -1 then next
  else if code = -1 then { next with outcome := some .disconnected }
  else
    let message := MessageHeader.ofBytes header
    if message.protocolVersion ≠ protocolVersion then next
    else if message.type ≠ typeShutdown then next
    else { next with outcome := some .shutdown }

def step (w : TcpWorker) (result : Result) : Option TcpWorker :=
  if w.outcome ≠ none then none
  else
    match result with
    | .moved n =>
      if 0 < n ∧ n ≤ w.left ∧ n ≤ w.stream.length then
        (Buffer.storeAt w.header (w.header.length - w.left) (w.stream.take n)).map fun header =>
          if w.left - n = 0 then afterRead (w.stream.drop n) header 0
          else { w with header, left := w.left - n, stream := w.stream.drop n }
      else none
    | .interrupted => some w
    | .closed => some (afterRead w.stream w.header (-1))
    | .again => some (afterRead w.stream w.header (-11))
    | .failed => some (afterRead w.stream w.header (-1))

-- what follows the first header that asks for the end, all bytes being at hand
def commands : List UInt8 → Option (List UInt8)
  | version :: type :: rest =>
    if version = protocolVersion ∧ type = typeShutdown then some rest else commands rest
  | _ => none

structure Agrees (bytes : List UInt8) (results : List Result) (w : TcpWorker) : Prop where
  found : w.outcome = some .shutdown → commands bytes = some w.stream
  missed : w.outcome ≠ some .shutdown →
    commands (bytes.take (bytes.length - w.stream.length)) = none
  ended : w.outcome = some .disconnected ↔ .closed ∈ results ∨ .failed ∈ results

-- what read_struct has still to fill after one more result of recv
def leftAfter (left : Nat) : Result → Nat
  | .moved n => if left - n = 0 then Wire.sizeofMessageHeader else left - n
  | .interrupted => left
  | _ => Wire.sizeofMessageHeader

-- no byte follows a timeout that has cut a header
def Whole (results : List Result) : Prop :=
  ∀ before after, results = before ++ .again :: after →
    before.foldl leftAfter Wire.sizeofMessageHeader = 1 → ∀ n, .moved n ∉ after

theorem step_open {w t : TcpWorker} {result : Result} (h : step w result = some t) :
    w.outcome = none := by
  unfold step at h
  split at h
  · cases h
  · rename_i hopen
    exact Classical.byContradiction hopen

-- end of stream, a timeout or an error ends read_struct
theorem read_last {w : TcpWorker} {r : Read UInt8} {result : Result} {results : List Result}
    (hmoved : ∀ n, result ≠ .moved n) (hinterrupted : result ≠ .interrupted)
    (hopen : w.outcome = none)
    (h : readLoop w.header w.left w.stream (result :: results) = some r) :
    results = [] ∧ step w result = some (afterRead r.stream r.memory r.code) := by
  have hclosed : ¬ w.outcome ≠ none := fun hno => hno hopen
  obtain ⟨rfl, rfl⟩ := Partial.readLoop_stop hmoved hinterrupted h
  refine ⟨rfl, ?_⟩
  cases result with
  | moved n => exact absurd rfl (hmoved n)
  | interrupted => exact absurd rfl hinterrupted
  | closed => rw [step, if_neg hclosed]; rfl
  | again => rw [step, if_neg hclosed]; rfl
  | failed => rw [step, if_neg hclosed]; rfl

theorem run_read {r : Read UInt8} {results : List Result} {w : TcpWorker}
    (hopen : w.outcome = none) (hleft : 0 < w.left)
    (h : readLoop w.header w.left w.stream results = some r) :
    Transition.run step w results = some (afterRead r.stream r.memory r.code) := by
  induction results generalizing w with
  | nil => simp [readLoop, hleft] at h
  | cons result results ih =>
    have hclosed : ¬ w.outcome ≠ none := fun hno => hno hopen
    cases result with
    | moved n =>
      rw [readLoop, if_pos hleft] at h
      split at h
      · rename_i hn
        obtain ⟨header, hstore, h⟩ := Option.bind_eq_some_iff.mp h
        simp only [Transition.run, step, if_neg hclosed, if_pos hn, hstore, Option.map_some,
          Option.bind_some]
        by_cases hdone : w.left - n = 0
        · rw [hdone] at h
          cases results with
          | nil =>
            obtain rfl := Option.some.inj h
            rw [if_pos hdone]
            rfl
          | cons result results => cases h
        · rw [if_neg hdone]
          exact ih hopen (Nat.pos_of_ne_zero hdone) h
      · cases h
    | interrupted =>
      rw [readLoop, if_pos hleft] at h
      simp only [Transition.run, step, if_neg hclosed, Option.bind_some]
      exact ih hopen hleft h
    | _ =>
      obtain ⟨rfl, hstep⟩ := read_last (by simp) (by simp) hopen h
      simp only [Transition.run, hstep, Option.bind_some]

theorem run_readStruct {header : Wire.Memory Wire.sizeofMessageHeader} {stream : List UInt8}
    {results : List Result} {r : Read UInt8} (h : Wire.readStruct header stream results = some r) :
    Transition.run step (start header.1 stream) results =
      some (afterRead r.stream r.memory r.code) :=
  run_read rfl Nat.two_pos h

theorem commands_append {full : List UInt8} (heven : full.length % 2 = 0)
    (hnone : commands full = none) (rest : List UInt8) :
    commands (full ++ rest) = commands rest := by
  induction full using commands.induct with
  | case1 version type full hasks => rw [commands, if_pos hasks] at hnone; cases hnone
  | case2 version type full hasks ih =>
    rw [commands, if_neg hasks] at hnone
    rw [List.cons_append, List.cons_append, commands, if_neg hasks]
    exact ih (by simpa [Nat.add_assoc] using heven) hnone
  | case3 full hshort =>
    match full, heven, hshort with
    | [], _, _ => rfl
    | [_], heven, _ => cases heven
    | version :: type :: full, _, hshort => exact absurd rfl (hshort version type full)

theorem afterRead_message (stream : List UInt8) (version type : UInt8) :
    afterRead stream [version, type] 0 =
      { start [version, type] stream with
        outcome :=
          if version = protocolVersion ∧ type = typeShutdown then some .shutdown else none } := by
  have hcode : ¬ (0 : Int32) < -1 := by decide
  have hzero : ¬ (0 : Int32) = -1 := by decide
  rw [afterRead, if_neg hcode, if_neg hzero]
  by_cases hversion : version = protocolVersion
  · by_cases htype : type = typeShutdown
    · simp [MessageHeader.ofBytes, hversion, htype]
    · simp [MessageHeader.ofBytes, hversion, htype, start]
  · simp [MessageHeader.ofBytes, hversion, start]

theorem afterRead_again (stream header : List UInt8) :
    afterRead stream header (-11) = start header stream := by
  have hcode : (-11 : Int32) < -1 := by decide
  rw [afterRead, if_pos hcode]

theorem afterRead_ended (stream header : List UInt8) :
    afterRead stream header (-1) = { start header stream with outcome := some .disconnected } := by
  have hcode : ¬ (-1 : Int32) < -1 := by decide
  rw [afterRead, if_neg hcode, if_pos rfl]

-- the two places in read_struct: no byte of the header read, or one
inductive Place : TcpWorker → Prop
  | between {header stream : List UInt8} : header.length = Wire.sizeofMessageHeader →
    Place (start header stream)
  | inside {version rest : UInt8} {stream : List UInt8} : Place ⟨[version, rest], 1, stream, none⟩

-- what recv can do at either place
inductive Moves : TcpWorker → Nat → TcpWorker → Prop
  | first {x y version : UInt8} {stream : List UInt8} :
    Moves (start [x, y] (version :: stream)) 1 ⟨[version, y], 1, stream, none⟩
  | whole {x y version type : UInt8} {stream : List UInt8} :
    Moves (start [x, y] (version :: type :: stream)) 2 (afterRead stream [version, type] 0)
  | second {version y type : UInt8} {stream : List UInt8} :
    Moves ⟨[version, y], 1, type :: stream, none⟩ 1 (afterRead stream [version, type] 0)

theorem step_moves {w t : TcpWorker} {n : Nat} (hplace : Place w) (h : step w (.moved n) = some t) :
    Moves w n t := by
  cases hplace with
  | @between header stream hheader =>
    obtain ⟨x, y, rfl⟩ := List.length_eq_two.mp hheader
    match n, stream, h with
    | 0, _, h => simp [step, start] at h
    | 1, [], h => simp [step, start] at h
    | 1, version :: stream, h =>
      obtain rfl := Option.some.inj h
      exact .first
    | 2, [], h => simp [step, start] at h
    | 2, [_], h => simp [step, start] at h
    | 2, version :: type :: stream, h =>
      obtain rfl := Option.some.inj h
      exact .whole
    | n + 3, _, h => simp [step, start, Wire.sizeofMessageHeader] at h
  | @inside version y stream =>
    match n, stream, h with
    | 0, _, h => simp [step] at h
    | 1, [], h => simp [step] at h
    | 1, type :: stream, h =>
      obtain rfl := Option.some.inj h
      exact .second
    | n + 2, _, h => simp [step] at h

inductive Steps (w : TcpWorker) : Result → TcpWorker → Prop
  | moved {n : Nat} {t : TcpWorker} : Moves w n t → Steps w (.moved n) t
  | interrupted : Steps w .interrupted w
  | again : Steps w .again (start w.header w.stream)
  | closed : Steps w .closed { start w.header w.stream with outcome := some .disconnected }
  | failed : Steps w .failed { start w.header w.stream with outcome := some .disconnected }

theorem step_cases {w t : TcpWorker} {result : Result} (hplace : Place w)
    (h : step w result = some t) : Steps w result t := by
  have hopen := step_open h
  have hclosed : ¬ w.outcome ≠ none := fun hno => hno hopen
  cases result with
  | moved n => exact .moved (step_moves hplace h)
  | interrupted =>
    obtain rfl := Option.some.inj ((if_neg hclosed).symm.trans h)
    exact .interrupted
  | again =>
    obtain rfl := Option.some.inj ((if_neg hclosed).symm.trans h)
    rw [afterRead_again]
    exact .again
  | closed =>
    obtain rfl := Option.some.inj ((if_neg hclosed).symm.trans h)
    rw [afterRead_ended]
    exact .closed
  | failed =>
    obtain rfl := Option.some.inj ((if_neg hclosed).symm.trans h)
    rw [afterRead_ended]
    exact .failed

theorem Place.restart {w : TcpWorker} (h : Place w) : Place (start w.header w.stream) := by
  cases h with
  | between hheader => exact .between hheader
  | inside => exact .between rfl

theorem afterRead_place {stream : List UInt8} {version type : UInt8}
    (h : (afterRead stream [version, type] 0).outcome = none) :
    Place (afterRead stream [version, type] 0) := by
  rw [afterRead_message] at h ⊢
  simp only at h
  rw [h]
  exact .between rfl

theorem step_place {w t : TcpWorker} {result : Result} (hplace : Place w)
    (h : step w result = some t) (hopen : t.outcome = none) : Place t := by
  cases step_cases hplace h with
  | moved hmoves =>
    cases hmoves with
    | first => exact .inside
    | whole => exact afterRead_place hopen
    | second => exact afterRead_place hopen
  | interrupted => exact hplace
  | again => exact hplace.restart
  | closed => cases hopen
  | failed => cases hopen

theorem step_left {w t : TcpWorker} {result : Result} (hplace : Place w)
    (h : step w result = some t) : t.left = leftAfter w.left result := by
  cases step_cases hplace h with
  | moved hmoves =>
    cases hmoves with
    | first => rfl
    | whole => rw [afterRead_message]; rfl
    | second => rw [afterRead_message]; rfl
  | interrupted => rfl
  | again => rfl
  | closed => rfl
  | failed => rfl

theorem step_ended {w t : TcpWorker} {result : Result} (hplace : Place w)
    (h : step w result = some t) :
    t.outcome = some .disconnected ↔ result = .closed ∨ result = .failed := by
  have hopen := step_open h
  cases step_cases hplace h with
  | moved hmoves =>
    cases hmoves with
    | first => simp
    | whole => rw [afterRead_message]; split <;> simp
    | second => rw [afterRead_message]; split <;> simp
  | interrupted => simp [hopen]
  | again => simp [start]
  | closed => simp
  | failed => simp

-- a worker that has left the loop takes no further result
theorem run_stopped {w t : TcpWorker} {results : List Result} (hstopped : w.outcome ≠ none)
    (h : Transition.run step w results = some t) : results = [] ∧ t = w := by
  cases results with
  | nil => exact ⟨rfl, (Option.some.inj h).symm⟩
  | cons result results =>
    obtain ⟨m, hm, -⟩ := Option.bind_eq_some_iff.mp h
    exact absurd (step_open hm) hstopped

theorem run_ended {results : List Result} {w t : TcpWorker} (hplace : Place w)
    (h : Transition.run step w results = some t) :
    t.outcome = some .disconnected ↔ .closed ∈ results ∨ .failed ∈ results := by
  induction results generalizing w with
  | nil =>
    obtain rfl := Option.some.inj h
    cases hplace <;> simp [start]
  | cons result results ih =>
    obtain ⟨m, hm, ht⟩ := Option.bind_eq_some_iff.mp h
    have hstep := step_ended hplace hm
    by_cases hopen : m.outcome = none
    · have hnot : ¬ (result = .closed ∨ result = .failed) := by
        rw [← hstep, hopen]
        simp
      rw [ih (step_place hplace hm hopen) ht]
      simp only [List.mem_cons, eq_comm (a := Result.closed), eq_comm (a := Result.failed)]
      tauto
    · obtain ⟨rfl, rfl⟩ := run_stopped hopen ht
      simpa [eq_comm] using hstep

-- all bytes taken so far make whole headers and, at the second place, the first byte of one
inductive Aligned (bytes : List UInt8) : TcpWorker → Prop
  | between {full header stream : List UInt8} : header.length = Wire.sizeofMessageHeader →
    full.length % 2 = 0 → commands full = none → bytes = full ++ stream →
    Aligned bytes (start header stream)
  | inside {full stream : List UInt8} {version rest : UInt8} : full.length % 2 = 0 →
    commands full = none → bytes = full ++ version :: stream →
    Aligned bytes ⟨[version, rest], 1, stream, none⟩

structure Settled (bytes : List UInt8) (w : TcpWorker) : Prop where
  found : w.outcome = some .shutdown → commands bytes = some w.stream
  missed : w.outcome ≠ some .shutdown →
    commands (bytes.take (bytes.length - w.stream.length)) = none

theorem aligned_start {header : List UInt8} (hheader : header.length = Wire.sizeofMessageHeader)
    (bytes : List UInt8) : Aligned bytes (start header bytes) :=
  .between hheader rfl rfl (List.nil_append bytes).symm

theorem Aligned.place {bytes : List UInt8} {w : TcpWorker} (h : Aligned bytes w) : Place w := by
  cases h with
  | between hheader => exact .between hheader
  | inside => exact .inside

theorem take_received (full stream : List UInt8) :
    (full ++ stream).take ((full ++ stream).length - stream.length) = full := by
  rw [List.length_append, Nat.add_sub_cancel]
  exact List.take_left' rfl

theorem Aligned.missed {bytes : List UInt8} {w : TcpWorker} (h : Aligned bytes w) :
    commands (bytes.take (bytes.length - w.stream.length)) = none := by
  cases h with
  | @between full header stream _ _ hnone hbytes =>
    subst hbytes
    exact (congrArg commands (take_received full stream)).trans hnone
  | @inside full stream version rest heven hnone hbytes =>
    have hsplit : bytes = (full ++ [version]) ++ stream := by
      rw [hbytes, List.append_assoc, List.singleton_append]
    subst hsplit
    exact (congrArg commands (take_received (full ++ [version]) stream)).trans
      (commands_append heven hnone [version])

theorem Aligned.settled {bytes : List UInt8} {w : TcpWorker} (h : Aligned bytes w) :
    Settled bytes w where
  found hfound := by cases h <;> cases hfound
  missed _ := h.missed

theorem settled_ended {bytes header stream : List UInt8}
    (hmissed : commands (bytes.take (bytes.length - stream.length)) = none) :
    Settled bytes { start header stream with outcome := some .disconnected } where
  found hfound := by cases hfound
  missed _ := hmissed

theorem aligned_read {bytes full stream : List UInt8} {version type : UInt8}
    (heven : full.length % 2 = 0) (hnone : commands full = none)
    (hbytes : bytes = full ++ version :: type :: stream) :
    Settled bytes (afterRead stream [version, type] 0) ∧
      ((afterRead stream [version, type] 0).outcome = none →
        Aligned bytes (afterRead stream [version, type] 0)) := by
  have hrest := commands_append heven hnone (version :: type :: stream)
  rw [afterRead_message]
  by_cases hasks : version = protocolVersion ∧ type = typeShutdown
  · rw [commands, if_pos hasks] at hrest
    rw [if_pos hasks, hbytes]
    exact ⟨⟨fun _ => hrest, fun hno => absurd rfl hno⟩, fun hopen => by cases hopen⟩
  · rw [if_neg hasks]
    have hheader := commands_append heven hnone [version, type]
    rw [commands, if_neg hasks] at hheader
    have heven' : (full ++ [version, type]).length % 2 = 0 := by
      rw [List.length_append]
      simp [heven]
    have hbytes' : bytes = (full ++ [version, type]) ++ stream := by
      rw [hbytes, List.append_assoc]
      rfl
    have hnext : Aligned bytes (start [version, type] stream) :=
      .between rfl heven' hheader hbytes'
    exact ⟨hnext.settled, fun _ => hnext⟩

theorem aligned_step {bytes : List UInt8} {w t : TcpWorker} {result : Result}
    (haligned : Aligned bytes w) (hwhole : result = .again → w.left ≠ 1)
    (h : step w result = some t) :
    Settled bytes t ∧ (t.outcome = none → Aligned bytes t) := by
  have hmissed := haligned.missed
  cases step_cases haligned.place h with
  | moved hmoves =>
    cases hmoves with
    | @first x y version stream =>
      cases haligned with
      | between _ heven hnone hbytes =>
        have hnext : Aligned bytes ⟨[version, y], 1, stream, none⟩ := .inside heven hnone hbytes
        exact ⟨hnext.settled, fun _ => hnext⟩
    | whole =>
      cases haligned with
      | between _ heven hnone hbytes => exact aligned_read heven hnone hbytes
    | second =>
      cases haligned with
      | inside heven hnone hbytes => exact aligned_read heven hnone hbytes
  | interrupted => exact ⟨haligned.settled, fun _ => haligned⟩
  | again =>
    cases haligned with
    | between hheader heven hnone hbytes =>
      have hnext := Aligned.between hheader heven hnone hbytes
      exact ⟨hnext.settled, fun _ => hnext⟩
    | inside => exact absurd rfl (hwhole rfl)
  | closed => exact ⟨settled_ended hmissed, fun hopen => by cases hopen⟩
  | failed => exact ⟨settled_ended hmissed, fun hopen => by cases hopen⟩

-- no timeout cuts a header
def Steady : Nat → List Result → Prop
  | _, [] => True
  | left, result :: results =>
    (result = .again → left ≠ 1) ∧ Steady (leftAfter left result) results

theorem aligned_run {bytes : List UInt8} {results : List Result} {w t : TcpWorker}
    (haligned : Aligned bytes w) (hsteady : Steady w.left results)
    (h : Transition.run step w results = some t) :
    Settled bytes t ∧ (t.outcome = none → Aligned bytes t) := by
  induction results generalizing w with
  | nil =>
    obtain rfl := Option.some.inj h
    exact ⟨haligned.settled, fun _ => haligned⟩
  | cons result results ih =>
    obtain ⟨m, hm, ht⟩ := Option.bind_eq_some_iff.mp h
    obtain ⟨hwhole, hrest⟩ := hsteady
    rw [← step_left haligned.place hm] at hrest
    have hstep := aligned_step haligned hwhole hm
    by_cases hopen : m.outcome = none
    · exact ih (hstep.2 hopen) hrest ht
    · obtain ⟨-, rfl⟩ := run_stopped hopen ht
      exact hstep

-- nothing comes in after a cut
theorem silent_run {results : List Result} {w t : TcpWorker} (hplace : Place w)
    (hsilent : ∀ n, .moved n ∉ results) (h : Transition.run step w results = some t) :
    t.stream = w.stream ∧ t.outcome ≠ some .shutdown := by
  induction results generalizing w with
  | nil =>
    obtain rfl := Option.some.inj h
    exact ⟨rfl, by cases hplace <;> simp [start]⟩
  | cons result results ih =>
    obtain ⟨m, hm, ht⟩ := Option.bind_eq_some_iff.mp h
    have hquiet : m.stream = w.stream ∧ m.outcome ≠ some .shutdown := by
      have hopen := step_open hm
      cases step_cases hplace hm with
      | moved hmoves => exact absurd List.mem_cons_self (hsilent _)
      | interrupted => simp [hopen]
      | again => simp [start]
      | closed => simp [start]
      | failed => simp [start]
    by_cases hopen : m.outcome = none
    · have hrest := ih (step_place hplace hm hopen)
        (fun n hmem => hsilent n (List.mem_cons_of_mem _ hmem)) ht
      exact ⟨hrest.1.trans hquiet.1, hrest.2⟩
    · obtain ⟨-, rfl⟩ := run_stopped hopen ht
      exact hquiet

theorem steady_or_cut (left : Nat) (results : List Result) :
    Steady left results ∨ ∃ before after, results = before ++ .again :: after ∧
      before.foldl leftAfter left = 1 := by
  induction results generalizing left with
  | nil => exact Or.inl trivial
  | cons result results ih =>
    by_cases hcut : result = .again ∧ left = 1
    · obtain ⟨rfl, rfl⟩ := hcut
      exact Or.inr ⟨[], results, rfl, rfl⟩
    · rcases ih (leftAfter left result) with hsteady | ⟨before, after, rfl, hleft⟩
      · exact Or.inl ⟨fun hagain hone => hcut ⟨hagain, hone⟩, hsteady⟩
      · exact Or.inr ⟨result :: before, after, rfl, hleft⟩

theorem steady_whole {results : List Result} (h : Steady Wire.sizeofMessageHeader results) :
    Whole results := by
  have huncut : ∀ {before after : List Result} {left : Nat},
      Steady left (before ++ .again :: after) → before.foldl leftAfter left ≠ 1 := by
    intro before after
    induction before with
    | nil => exact fun hsteady => hsteady.1 rfl
    | cons result before ih => exact fun hsteady => ih hsteady.2
  intro before after hsplit hleft
  exact absurd hleft (huncut (hsplit ▸ h))

theorem first_cut {left : Nat} {before : List Result} (after : List Result)
    (h : before.foldl leftAfter left = 1) :
    ∃ first rest, before ++ .again :: after = first ++ .again :: rest ∧ Steady left first ∧
      first.foldl leftAfter left = 1 ∧ ∀ result ∈ after, result ∈ rest := by
  induction before generalizing left with
  | nil => exact ⟨[], after, rfl, trivial, h, fun _ hmem => hmem⟩
  | cons result before ih =>
    by_cases hcut : result = .again ∧ left = 1
    · obtain ⟨rfl, rfl⟩ := hcut
      exact ⟨[], before ++ .again :: after, rfl, trivial, rfl, fun result hmem => by simp [hmem]⟩
    · obtain ⟨first, rest, hsplit, hsteady, hleft, hmem⟩ := ih h
      exact ⟨result :: first, rest, by rw [List.cons_append, hsplit, List.cons_append],
        ⟨fun hagain hone => hcut ⟨hagain, hone⟩, hsteady⟩, hleft, hmem⟩

-- the same results on another stream: the same place, as many bytes
structure Alike (w w' : TcpWorker) : Prop where
  place : Place w
  place' : Place w'
  left : w'.left = w.left
  stream : w'.stream.length = w.stream.length

-- of the next `n` bytes none asks for the end
def Mute (n : Nat) (w : TcpWorker) : Prop :=
  ∀ i < n, w.stream.getD i 0 = 0 ∨ (i = 0 ∧ w.left = Wire.sizeofMessageHeader)

theorem afterRead_mute (stream : List UInt8) (version : UInt8) :
    afterRead stream [version, 0] 0 = start [version, 0] stream := by
  have hno : ¬ (version = protocolVersion ∧ (0 : UInt8) = typeShutdown) :=
    fun hasks => absurd hasks.2 (by decide)
  rw [afterRead_message, if_neg hno]
  rfl

theorem step_of_moves {w t : TcpWorker} {n : Nat} (h : Moves w n t) :
    step w (.moved n) = some t := by
  cases h with
  | first => rfl
  | whole => rfl
  | second => rfl

theorem Moves.stream {w t : TcpWorker} {n : Nat} (h : Moves w n t) :
    0 < n ∧ t.stream = w.stream.drop n ∧ w.stream.length = t.stream.length + n := by
  cases h with
  | first => exact ⟨Nat.one_pos, rfl, rfl⟩
  | whole => rw [afterRead_message]; exact ⟨Nat.two_pos, rfl, rfl⟩
  | second => rw [afterRead_message]; exact ⟨Nat.one_pos, rfl, rfl⟩

theorem alike_moves {w t w' : TcpWorker} {n : Nat} (halike : Alike w w') (hmoves : Moves w n t)
    (hmute : Mute n w') : ∃ t', Moves w' n t' ∧ t'.outcome = none ∧ t'.left = t.left := by
  obtain ⟨-, hplace, hleft, hlen⟩ := halike
  cases hmoves with
  | @first x y version stream =>
    cases hplace with
    | @between header stream' hheader =>
      obtain ⟨a, b, rfl⟩ := List.length_eq_two.mp hheader
      cases stream' with
      | nil => cases hlen
      | cons version' stream' => exact ⟨_, .first, rfl, rfl⟩
    | inside => cases hleft
  | @whole x y version type stream =>
    cases hplace with
    | @between header stream' hheader =>
      obtain ⟨a, b, rfl⟩ := List.length_eq_two.mp hheader
      match stream', hlen, hmute with
      | version' :: type' :: stream', _, hmute =>
        obtain rfl : type' = 0 := (hmute 1 (by decide)).resolve_right fun hfirst => by simp at hfirst
        refine ⟨_, .whole, ?_, ?_⟩
        · rw [afterRead_mute]
          rfl
        · rw [afterRead_mute, afterRead_message]
          rfl
    | inside => cases hleft
  | @second version y type stream =>
    cases hplace with
    | between => cases hleft
    | @inside version' y' stream' =>
      match stream', hlen, hmute with
      | type' :: stream', _, hmute =>
        obtain rfl : type' = 0 :=
          (hmute 0 (by decide)).resolve_right fun hfirst => by simp [Wire.sizeofMessageHeader] at hfirst
        refine ⟨_, .second, ?_, ?_⟩
        · rw [afterRead_mute]
          rfl
        · rw [afterRead_mute, afterRead_message]
          rfl

theorem Mute.next {w t : TcpWorker} {n m : Nat} (hmoves : Moves w n t) (hmute : Mute (n + m) w) :
    Mute m t := by
  obtain ⟨hn, hdrop, -⟩ := hmoves.stream
  intro i hi
  left
  have hbyte := hmute (n + i) (by omega)
  rw [hdrop, List.getD_eq_getElem?_getD, List.getElem?_drop, ← List.getD_eq_getElem?_getD]
  exact hbyte.resolve_right fun hfirst => by omega

theorem run_stream {results : List Result} {w t : TcpWorker} (hplace : Place w)
    (h : Transition.run step w results = some t) : t.stream.length ≤ w.stream.length := by
  induction results generalizing w with
  | nil =>
    obtain rfl := Option.some.inj h
    exact Nat.le_refl _
  | cons result results ih =>
    obtain ⟨m, hm, ht⟩ := Option.bind_eq_some_iff.mp h
    have hstep : m.stream.length ≤ w.stream.length := by
      cases step_cases hplace hm with
      | moved hmoves =>
        have hlen := hmoves.stream.2.2
        omega
      | interrupted => exact Nat.le_refl _
      | again => exact Nat.le_refl _
      | closed => exact Nat.le_refl _
      | failed => exact Nat.le_refl _
    by_cases hopen : m.outcome = none
    · exact Nat.le_trans (ih (step_place hplace hm hopen) ht) hstep
    · obtain ⟨-, rfl⟩ := run_stopped hopen ht
      exact hstep

theorem Place.open {w : TcpWorker} (h : Place w) : w.outcome = none := by
  cases h <;> rfl

theorem step_of_steps {w t : TcpWorker} {result : Result} (hplace : Place w)
    (h : Steps w result t) : step w result = some t := by
  have hclosed : ¬ w.outcome ≠ none := fun hno => hno hplace.open
  cases h with
  | moved hmoves => exact step_of_moves hmoves
  | interrupted => exact if_neg hclosed
  | again =>
    rw [← afterRead_again]
    exact if_neg hclosed
  | closed =>
    rw [← afterRead_ended]
    exact if_neg hclosed
  | failed =>
    rw [← afterRead_ended]
    exact if_neg hclosed

structure Follows (k : Nat) (w m w' m' : TcpWorker) : Prop where
  stream : m'.stream = w'.stream.drop (w.stream.length - m.stream.length)
  mute : Mute k m'
  refused : m'.outcome ≠ some .shutdown
  alike : m.outcome = none → m'.outcome = none ∧ Alike m m'

theorem alike_step {w m w' : TcpWorker} {result : Result} {k : Nat} (halike : Alike w w')
    (hmute : Mute (w.stream.length - m.stream.length + k) w') (h : step w result = some m) :
    ∃ m', step w' result = some m' ∧ Follows k w m w' m' := by
  obtain ⟨hplace, hplace', hleft, hlen⟩ := halike
  have hsame : ∀ i < k, w'.stream.getD i 0 = 0 ∨ (i = 0 ∧ w'.left = Wire.sizeofMessageHeader) :=
    fun i hi => hmute i (by omega)
  have hdrop : w'.stream = w'.stream.drop (w.stream.length - w.stream.length) := by simp
  cases step_cases hplace h with
  | @moved n _ hmoves =>
    obtain ⟨-, -, hmoved⟩ := hmoves.stream
    have hn : w.stream.length - m.stream.length = n := by omega
    rw [hn] at hmute
    obtain ⟨m', hmoves', hopen', hleft'⟩ := alike_moves ⟨hplace, hplace', hleft, hlen⟩ hmoves
      fun i hi => hmute i (by omega)
    obtain ⟨-, hstream', hmoved'⟩ := hmoves'.stream
    have hstep' := step_of_moves hmoves'
    refine ⟨m', hstep', ⟨by rw [hn, hstream'], hmute.next hmoves', by simp [hopen'], ?_⟩⟩
    intro hopen
    exact ⟨hopen', step_place hplace h hopen, step_place hplace' hstep' hopen', hleft', by omega⟩
  | interrupted =>
    refine ⟨w', step_of_steps hplace' .interrupted, ⟨hdrop, hsame, by simp [hplace'.open], ?_⟩⟩
    intro _
    exact ⟨hplace'.open, hplace, hplace', hleft, hlen⟩
  | again =>
    refine ⟨_, step_of_steps hplace' .again, ⟨hdrop, ?_, by simp [start], ?_⟩⟩
    · intro i hi
      exact (hsame i hi).imp_right fun hfirst => ⟨hfirst.1, rfl⟩
    · intro _
      exact ⟨rfl, hplace.restart, hplace'.restart, rfl, hlen⟩
  | closed =>
    refine ⟨_, step_of_steps hplace' .closed, ⟨hdrop, ?_, by simp, fun hopen => by cases hopen⟩⟩
    intro i hi
    exact (hsame i hi).imp_right fun hfirst => ⟨hfirst.1, rfl⟩
  | failed =>
    refine ⟨_, step_of_steps hplace' .failed, ⟨hdrop, ?_, by simp, fun hopen => by cases hopen⟩⟩
    intro i hi
    exact (hsame i hi).imp_right fun hfirst => ⟨hfirst.1, rfl⟩

theorem alike_run {results : List Result} {w t w' : TcpWorker} (halike : Alike w w')
    (hmute : Mute (w.stream.length - t.stream.length) w')
    (h : Transition.run step w results = some t) :
    ∃ t', Transition.run step w' results = some t' ∧ Follows 0 w t w' t' := by
  induction results generalizing w w' with
  | nil =>
    obtain rfl := Option.some.inj h
    have hopen := halike.place'.open
    refine ⟨w', rfl, ⟨by simp, ?_, by simp [hopen], fun _ => ⟨hopen, halike⟩⟩⟩
    intro i hi
    cases hi
  | cons result results ih =>
    obtain ⟨m, hm, ht⟩ := Option.bind_eq_some_iff.mp h
    have hone : Transition.run step w [result] = some m := by
      rw [Transition.run, hm]
      rfl
    have hstream := run_stream halike.place hone
    have hrest : t.stream.length ≤ m.stream.length := by
      by_cases hopen : m.outcome = none
      · exact run_stream (step_place halike.place hm hopen) ht
      · obtain ⟨-, rfl⟩ := run_stopped hopen ht
        exact Nat.le_refl _
    have hsum : w.stream.length - t.stream.length =
        w.stream.length - m.stream.length + (m.stream.length - t.stream.length) := by omega
    rw [hsum] at hmute
    obtain ⟨m', hm', hfollows⟩ := alike_step halike hmute hm
    by_cases hopen : m.outcome = none
    · obtain ⟨hopen', halike'⟩ := hfollows.alike hopen
      obtain ⟨t', ht', hend⟩ := ih halike' hfollows.mute ht
      refine ⟨t', by rw [Transition.run, hm']; exact ht', ⟨?_, hend.mute, hend.refused, hend.alike⟩⟩
      rw [hend.stream, hfollows.stream, List.drop_drop, hsum]
    · obtain ⟨rfl, rfl⟩ := run_stopped hopen ht
      refine ⟨m', by rw [Transition.run, hm']; rfl, ⟨hfollows.stream, ?_, hfollows.refused,
        hfollows.alike⟩⟩
      intro i hi
      cases hi

theorem run_left {results : List Result} {w t : TcpWorker} (hplace : Place w)
    (h : Transition.run step w results = some t) : t.left = results.foldl leftAfter w.left := by
  induction results generalizing w with
  | nil =>
    obtain rfl := Option.some.inj h
    rfl
  | cons result results ih =>
    obtain ⟨m, hm, ht⟩ := Option.bind_eq_some_iff.mp h
    rw [List.foldl_cons, ← step_left hplace hm]
    by_cases hopen : m.outcome = none
    · exact ih (step_place hplace hm hopen) ht
    · obtain ⟨rfl, rfl⟩ := run_stopped hopen ht
      rfl

theorem run_moved {results : List Result} {w t : TcpWorker} {n : Nat} (hplace : Place w)
    (hmem : .moved n ∈ results) (h : Transition.run step w results = some t) :
    t.stream.length < w.stream.length := by
  induction results generalizing w with
  | nil => cases hmem
  | cons result results ih =>
    obtain ⟨m, hm, ht⟩ := Option.bind_eq_some_iff.mp h
    have hone : Transition.run step w [result] = some m := by
      rw [Transition.run, hm]
      rfl
    have hstep := run_stream hplace hone
    by_cases hopen : m.outcome = none
    · have hnext := step_place hplace hm hopen
      rcases List.mem_cons.mp hmem with rfl | hmem
      · obtain ⟨hn, -, hmoved⟩ := (step_moves hplace hm).stream
        have hrest := run_stream hnext ht
        omega
      · exact Nat.lt_of_lt_of_le (ih hnext hmem ht) hstep
    · obtain ⟨rfl, rfl⟩ := run_stopped hopen ht
      obtain rfl := List.mem_singleton.mp hmem
      obtain ⟨hn, -, hmoved⟩ := (step_moves hplace hm).stream
      omega

-- the state in which the first cut finds the worker
theorem cut_run {bytes header : List UInt8} {first rest : List Result} {w : TcpWorker}
    (hheader : header.length = Wire.sizeofMessageHeader)
    (hsteady : Steady Wire.sizeofMessageHeader first)
    (hleft : first.foldl leftAfter Wire.sizeofMessageHeader = 1)
    (h : Transition.run step (start header bytes) (first ++ .again :: rest) = some w) :
    ∃ full version stream y, full.length % 2 = 0 ∧ commands full = none ∧
      bytes = full ++ version :: stream ∧
      Transition.run step (start header bytes) first = some ⟨[version, y], 1, stream, none⟩ ∧
      Transition.run step (start [version, y] stream) rest = some w := by
  rw [Transition.run_append] at h
  obtain ⟨m, hfirst, h⟩ := Option.bind_eq_some_iff.mp h
  obtain ⟨m', hcut, hrest⟩ := Option.bind_eq_some_iff.mp h
  have hstart := aligned_start hheader bytes
  have haligned := (aligned_run hstart hsteady hfirst).2 (step_open hcut)
  have hone : m.left = 1 := (run_left hstart.place hfirst).trans hleft
  cases haligned with
  | between => cases hone
  | @inside full stream version y heven hnone hbytes =>
    cases step_cases .inside hcut
    exact ⟨full, version, stream, y, heven, hnone, hbytes, hfirst, hrest⟩

theorem commands_zeros : (n : Nat) → commands (List.replicate n 0) = none
  | 0 => rfl
  | 1 => rfl
  | n + 2 => by
    rw [List.replicate_succ, List.replicate_succ, commands, if_neg (by decide)]
    exact commands_zeros n

-- the byte that a cut at its start loses, and the one that then begins a header
def probe (n k : Nat) : List UInt8 := List.replicate n 0 ++ 0 :: 1 :: List.replicate k 0

theorem commands_probe {n : Nat} (heven : n % 2 = 0) (k j : Nat) :
    commands ((probe n k).take (n + 2 + j)) ≠ none := by
  have hsplit : (probe n k).take (n + 2 + j) =
      List.replicate n 0 ++ 0 :: 1 :: (List.replicate k 0).take j := by
    have hlen : n + 2 + j = (List.replicate n (0 : UInt8)).length + (j + 1 + 1) := by
      rw [List.length_replicate]
      omega
    rw [probe, hlen, List.take_length_add_append, List.take_succ_cons, List.take_succ_cons]
  rw [hsplit, commands_append (by simpa using heven) (commands_zeros n), commands,
    if_pos (by decide)]
  simp

theorem probe_zero {n k i : Nat} (h : i ≤ n) : (probe n k).getD i 0 = 0 := by
  rw [probe, List.getD_eq_getElem?_getD]
  rcases Nat.lt_or_eq_of_le h with hlt | rfl
  · rw [List.getElem?_append_left (by simpa using hlt)]
    simp [hlt]
  · rw [List.getElem?_append_right (by simp)]
    simp

theorem probe_drop (n k : Nat) : (probe n k).drop (n + 1) = 1 :: List.replicate k 0 := by
  have hlen : n + 1 = (List.replicate n (0 : UInt8)).length + 1 := by simp
  rw [probe, hlen, List.drop_length_add_append]
  rfl

theorem mute_probe (header : List UInt8) (k n : Nat) :
    Mute n (start header (1 :: List.replicate k 0)) := by
  intro i _
  cases i with
  | zero => exact Or.inr ⟨rfl, rfl⟩
  | succ i =>
    left
    change (List.replicate k (0 : UInt8)).getD i 0 = 0
    rw [List.getD_eq_getElem?_getD, List.getElem?_replicate]
    split <;> rfl

-- a cut with a byte after it hides a header that asks for the end
theorem cut_hides {header bytes : List UInt8} {first rest : List Result} {n : Nat} {w : TcpWorker}
    (hheader : header.length = Wire.sizeofMessageHeader)
    (hsteady : Steady Wire.sizeofMessageHeader first)
    (hleft : first.foldl leftAfter Wire.sizeofMessageHeader = 1) (hmem : .moved n ∈ rest)
    (h : Transition.run step (start header bytes) (first ++ .again :: rest) = some w) :
    ∃ bytes' w', Transition.run step (start header bytes') (first ++ .again :: rest) = some w' ∧
      ¬ Agrees bytes' (first ++ .again :: rest) w' := by
  obtain ⟨full, version, stream, y, heven, -, rfl, hfirst, hrest⟩ :=
    cut_run hheader hsteady hleft h
  have hmoved : w.stream.length < stream.length := run_moved (.between rfl) hmem hrest
  have halike : Alike (start header (full ++ version :: stream))
      (start header (probe full.length (stream.length - 1))) :=
    ⟨.between hheader, .between hheader, rfl, by simp [start, probe]; omega⟩
  have htaken : (full ++ version :: stream).length - stream.length = full.length + 1 := by
    rw [List.length_append, List.length_cons]
    omega
  have hmute : Mute ((full ++ version :: stream).length - stream.length)
      (start header (probe full.length (stream.length - 1))) :=
    fun i hi => Or.inl (probe_zero (by omega))
  obtain ⟨m, hm, hfollows⟩ := alike_run (t := ⟨[version, y], 1, stream, none⟩) halike hmute hfirst
  obtain ⟨-, hplace⟩ := hfollows.alike rfl
  have hstream : m.stream = 1 :: List.replicate (stream.length - 1) 0 := by
    rw [← probe_drop full.length, ← htaken]
    exact hfollows.stream
  have hagain : Alike (start [version, y] stream) (start m.header m.stream) :=
    ⟨.between rfl, hplace.place'.restart, rfl, hplace.stream⟩
  obtain ⟨w', hw', hend⟩ := alike_run hagain (by rw [hstream]; exact mute_probe _ _ _) hrest
  refine ⟨probe full.length (stream.length - 1), w', ?_, ?_⟩
  · rw [Transition.run_append, hm, Option.bind_some, Transition.run,
      step_of_steps hplace.place' .again]
    exact hw'
  · intro hagrees
    have hmissed := hagrees.missed hend.refused
    have hleft' : w'.stream.length = w.stream.length := by
      have hlen := congrArg List.length hend.stream
      simp only [start, hstream, List.length_drop, List.length_cons, List.length_replicate] at hlen
      omega
    have hreceived : (probe full.length (stream.length - 1)).length - w'.stream.length =
        full.length + 2 + (stream.length - 1 - w.stream.length) := by
      rw [hleft', probe]
      simp only [List.length_append, List.length_cons, List.length_replicate]
      omega
    rw [hreceived] at hmissed
    exact commands_probe heven _ _ hmissed

theorem commands_recognised (header : Wire.Memory Wire.sizeofMessageHeader)
    {results : List Result}
    (hruns : ∃ bytes w, Transition.run step (start header.1 bytes) results = some w) :
    (∀ bytes w, Transition.run step (start header.1 bytes) results = some w →
      Agrees bytes results w) ↔ Whole results := by
  constructor
  · intro hagrees before after hsplit hleft n hmem
    obtain ⟨first, rest, hfirst, hsteady, hone, hrest⟩ := first_cut after hleft
    rw [hsplit, hfirst] at hruns hagrees
    obtain ⟨bytes, w, h⟩ := hruns
    obtain ⟨bytes', w', h', hno⟩ := cut_hides header.2 hsteady hone (hrest _ hmem) h
    exact hno (hagrees bytes' w' h')
  · intro hwhole bytes w h
    have hstart := aligned_start header.2 bytes
    have hended := run_ended hstart.place h
    rcases steady_or_cut Wire.sizeofMessageHeader results with hsteady | ⟨before, after, rfl, hleft⟩
    · obtain ⟨hfound, hmissed⟩ := (aligned_run hstart hsteady h).1
      exact ⟨hfound, hmissed, hended⟩
    · obtain ⟨first, rest, hfirst, hsteady, hone, -⟩ := first_cut after hleft
      rw [hfirst] at h hwhole
      obtain ⟨full, version, stream, y, heven, hnone, hbytes, -, hrest⟩ :=
        cut_run header.2 hsteady hone h
      obtain ⟨hstream, hno⟩ := silent_run (.between rfl) (hwhole first rest rfl hone) hrest
      have hcut : Aligned bytes ⟨[version, y], 1, stream, none⟩ := .inside heven hnone hbytes
      refine ⟨fun hfound => absurd hfound hno, fun _ => ?_, hended⟩
      rw [hstream]
      exact hcut.missed

theorem commands_recognised_split :
    Agrees [3, 1, 0, 1] [.again, .moved 1, .interrupted, .moved 1, .again, .moved 2]
      ⟨[0, 1], 2, [], some .shutdown⟩ :=
  (commands_recognised ⟨[204, 204], rfl⟩ ⟨[3, 1, 0, 1], ⟨[0, 1], 2, [], some .shutdown⟩, rfl⟩).mpr
    (steady_whole (by simp [Steady, leftAfter, Wire.sizeofMessageHeader])) [3, 1, 0, 1]
    ⟨[0, 1], 2, [], some .shutdown⟩ rfl

theorem cut_shutdown_missed : ∃ w,
    Transition.run step (start [204, 204] [0, 1]) [.moved 1, .again, .moved 1] = some w ∧
      w.outcome = none ∧ commands [0, 1] = some [] ∧
      ¬ Agrees [0, 1] [.moved 1, .again, .moved 1] w := by
  refine ⟨⟨[1, 204], 1, [], none⟩, rfl, rfl, rfl, ?_⟩
  intro hagrees
  have hmissed := hagrees.missed (by simp)
  cases hmissed

end Commands
end SdrServer
