import Mathlib.Data.List.ReduceOption
import SdrServer.Msisdr.Async

namespace SdrServer
namespace Msisdr

-- libusb has a transfer exactly if it was not cancelled
def Urb.Live (urb : Urb) : Prop := urb.inFlight = true ↔ urb.status ≠ .cancelled

-- the ends of msisdr_read_async that leave transfers behind
def Reader.Failing : Reader → Prop
  | .abandoning _ => True
  | .draining _ => True
  | .returned r => r ≠ 0
  | _ => False

def Control.Stops : Control → Prop
  | .starting _ => False
  | .resuming => False
  | _ => True

namespace Async

def Submitted (slots : List (Option Urb)) : Prop := ∀ urb, some urb ∈ slots → urb.Live

def AtRest (slots : List (Option Urb)) : Prop := ∀ urb, some urb ∈ slots → urb.inFlight = false

def Unused (slots : List (Option Urb)) : Prop :=
  ∀ urb, some urb ∈ slots → urb = ⟨.completed, false⟩

section Slots

variable {slots : List (Option Urb)}

theorem inFlight_atRest (h : AtRest slots) : inFlight slots = [] := by
  rw [inFlight, List.filter_eq_nil_iff]
  intro urb hurb
  simp [h urb (List.reduceOption_mem_iff.mp hurb)]

theorem Unused.atRest (h : Unused slots) : AtRest slots := fun urb hurb => by rw [h urb hurb]

theorem unused_asyncAlloc (num : Nat) : Unused (asyncAlloc num) := by
  intro urb hurb
  exact Option.some.inj (List.eq_of_mem_replicate hurb)

theorem Submitted.set (h : Submitted slots) (i : Nat) {slot : Option Urb}
    (hslot : ∀ urb, slot = some urb → urb.Live) : Submitted (slots.set i slot) := by
  intro urb hurb
  rcases List.mem_or_eq_of_mem_set hurb with hurb | hurb
  · exact h urb hurb
  · exact hslot urb hurb.symm

theorem mem_take_of_getElem? {i k : Nat} {slot : Option Urb} (hk : slots[k]? = some slot)
    (h : k < i) : slot ∈ slots.take i := by
  obtain ⟨hlt, rfl⟩ := List.getElem?_eq_some_iff.mp hk
  exact List.mem_take_iff_getElem.mpr ⟨k, by omega, rfl⟩

theorem mem_drop_of_getElem? {i k : Nat} {slot : Option Urb} (hk : slots[k]? = some slot)
    (h : i ≤ k) : slot ∈ slots.drop i := by
  have hdrop : (slots.drop i)[k - i]? = some slot := by
    rw [List.getElem?_drop, show i + (k - i) = k by omega, hk]
  exact List.mem_of_getElem? hdrop

-- what is in flight is not among the slots at rest
theorem AtRest.take_set {i k : Nat} {urb : Urb} (h : AtRest (slots.take i))
    (hk : slots[k]? = some (some urb)) (hflight : urb.inFlight = true) (slot : Option Urb) :
    AtRest ((slots.set k slot).take i) := by
  by_cases hlt : k < i
  · have hrest := h urb (mem_take_of_getElem? hk hlt)
    rw [hflight] at hrest
    cases hrest
  · rw [List.take_set, List.set_eq_of_length_le (by rw [List.length_take]; omega)]
    exact h

end Slots

def Phase (s : Async) : Prop :=
  match s.reader with
  | .submitting i => s.status = .inactive ∧ s.control = .idle ∧ Submitted (s.xfer.take i) ∧
    Unused (s.xfer.drop i)
  | .fallingBack => False
  | .waiting => s.status ≠ .inactive ∧ Submitted s.xfer
  | .cancelling i semafor => s.status ≠ .inactive ∧ Submitted s.xfer ∧
    (semafor = true → AtRest (s.xfer.take i))
  | .settling => Submitted s.xfer ∧ AtRest s.xfer
  | _ => Submitted s.xfer

-- nothing was started again
structure Clean (s : Async) : Prop where
  length : (∀ r, s.reader ≠ .returned r) → s.xfer.length = s.num
  phase : s.Phase
  control : s.control.Stops
  misuses : ¬ s.reader.Failing → s.misuses = []

section Steps

variable {s t : Async} {i : Nat}

theorem clean_start (kind : TransferKind) (num : Nat) : (start kind num).Clean where
  length _ := List.length_replicate
  phase := ⟨rfl, rfl, by simp [Submitted], unused_asyncAlloc num⟩
  control := trivial
  misuses _ := rfl

theorem Clean.submitted (h : s.Clean) (hreader : ∀ i, s.reader ≠ .submitting i) :
    Submitted s.xfer := by
  have hphase := h.phase
  unfold Phase at hphase
  cases hr : s.reader with
  | submitting i => exact absurd hr (hreader i)
  | fallingBack => simp [hr] at hphase
  | waiting => rw [hr] at hphase; exact hphase.2
  | cancelling i semafor => rw [hr] at hphase; exact hphase.2.1
  | settling => rw [hr] at hphase; exact hphase.1
  | abandoning i => rw [hr] at hphase; exact hphase
  | draining tries => rw [hr] at hphase; exact hphase
  | returned r => rw [hr] at hphase; exact hphase

theorem Clean.not_submitting (h : s.Clean) (hactive : s.status ≠ .inactive ∨ s.control ≠ .idle)
    (i : Nat) : s.reader ≠ .submitting i := by
  intro hr
  have hphase := h.phase
  rw [Phase, hr] at hphase
  exact hactive.elim (· hphase.1) (· hphase.2.1)

theorem visit_live {cancelled : Bool} (h : Submitted s.xfer) (hv : s.visit i = some (t, cancelled)) :
    t = s ∧ (cancelled = true → ∀ urb, s.xfer[i]? = some (some urb) → urb.inFlight = false) := by
  unfold visit at hv
  split at hv
  · cases hv
  · rename_i hslot
    cases hv
    exact ⟨rfl, fun _ urb hurb => by rw [hslot] at hurb; cases hurb⟩
  · rename_i urb hslot
    have hlive := h urb (List.mem_of_getElem? hslot)
    split at hv
    · rename_i hcancelled
      cases hv
      refine ⟨rfl, fun _ urb' hurb' => ?_⟩
      rw [hslot] at hurb'
      cases hurb'
      simpa [hcancelled, Urb.Live] using hlive
    · rename_i hactive
      cases hv
      exact ⟨if_pos (hlive.mpr hactive), nofun⟩

theorem atRest_take_succ (h : AtRest (s.xfer.take i))
    (hslot : ∀ urb, s.xfer[i]? = some (some urb) → urb.inFlight = false) :
    AtRest (s.xfer.take (i + 1)) := by
  intro urb hurb
  rw [List.take_add_one, List.mem_append] at hurb
  rcases hurb with hurb | hurb
  · exact h urb hurb
  · exact hslot urb (by simpa using hurb)

-- a change of the status alone, to one that is not that of a device at rest
theorem Clean.of_status (h : s.Clean) {status : AsyncStatus} (hstatus : status ≠ .inactive)
    (hreader : ∀ i, s.reader ≠ .submitting i) : { s with status }.Clean := by
  refine ⟨h.length, ?_, h.control, h.misuses⟩
  have hphase := h.phase
  unfold Phase at hphase ⊢
  cases hr : s.reader with
  | submitting i => exact absurd hr (hreader i)
  | fallingBack => simp [hr] at hphase
  | waiting => simp only [hr] at hphase ⊢; exact ⟨hstatus, hphase.2⟩
  | cancelling i semafor => simp only [hr] at hphase ⊢; exact ⟨hstatus, hphase.2⟩
  | _ => simpa only [hr] using hphase

theorem Clean.of_control (h : s.Clean) {control : Control} (hcontrol : control.Stops)
    (hreader : ∀ i, s.reader ≠ .submitting i) : { s with control }.Clean := by
  refine ⟨h.length, ?_, hcontrol, h.misuses⟩
  have hphase := h.phase
  unfold Phase at hphase ⊢
  cases hr : s.reader with
  | submitting i => exact absurd hr (hreader i)
  | fallingBack => simp [hr] at hphase
  | _ => simpa only [hr] using hphase

theorem asyncFree_atRest (h : AtRest s.xfer) : s.asyncFree = { s with xfer := [] } := by
  rw [asyncFree, inFlight_atRest h]
  rfl

-- the first transfer of an isochronous stream is the only one that may be refused
theorem Clean.submit {submitted : Bool} (h : s.Clean)
    (hkind : submitted = false → s.kind = .bulk ∨ s.reader = .submitting 0)
    (hstep : s.submit submitted = some t) : t.Clean := by
  obtain ⟨hlength, hphase, hcontrol, hmisuses⟩ := h
  unfold Async.submit at hstep
  split at hstep
  · rename_i i hr
    rw [Phase, hr] at hphase
    obtain ⟨hstatus, hidle, htake, hdrop⟩ := hphase
    have hlen := hlength (by rw [hr]; nofun)
    have hclean := hmisuses (by rw [hr]; exact id)
    split at hstep
    · rename_i urb hslot
      have hlt : i < s.xfer.length := (List.getElem?_eq_some_iff.mp hslot).1
      have hurb := hdrop urb (mem_drop_of_getElem? hslot le_rfl)
      split at hstep
      · obtain rfl := Option.some.inj hstep
        refine ⟨fun _ => by simpa [put] using hlen, ⟨hstatus, hidle, ?_, ?_⟩, hcontrol, fun _ => hclean⟩
        · intro urb' hurb'
          rw [put, List.take_set, List.take_add_one, hslot] at hurb'
          rw [List.set_append_right _ _ (by simp), List.mem_append] at hurb'
          rcases hurb' with hurb' | hurb'
          · exact htake urb' hurb'
          · obtain rfl : urb' = { urb with inFlight := true } := by
              simpa [List.length_take, Nat.min_eq_left hlt.le] using hurb'
            rw [hurb]
            simp [Urb.Live]
        · intro urb' hurb'
          rw [put, List.drop_set_of_lt (Nat.lt_succ_self i)] at hurb'
          refine hdrop urb' ?_
          rw [List.drop_eq_getElem_cons hlt]
          exact List.mem_cons_of_mem _ hurb'
      · rename_i hrefused
        have hkind := hkind (by simpa using hrefused)
        split at hstep
        · rename_i hisoc
          obtain rfl : i = 0 := by simpa [hisoc, hr] using hkind
          obtain rfl := Option.some.inj hstep
          have hrest : AtRest s.xfer := Unused.atRest hdrop
          simp only [List.take_zero, List.reduceOption_nil, List.foldl_nil, lt_irrefl, if_false, fallBack,
            asyncFree_atRest hrest]
          exact ⟨fun _ => List.length_replicate, ⟨hstatus, hidle, by simp [Submitted],
            unused_asyncAlloc s.num⟩, hcontrol, fun _ => hclean⟩
        · obtain rfl := Option.some.inj hstep
          refine ⟨fun _ => ?_, ?_, hcontrol, fun hfailing => absurd trivial hfailing⟩
          · simp only [abandon, List.length_append, List.length_take, List.length_replicate]
            omega
          · intro urb' hurb'
            rcases List.mem_append.mp hurb' with hurb' | hurb'
            · exact htake urb' hurb'
            · cases List.eq_of_mem_replicate hurb'
    · cases hstep
  · cases hstep

theorem Clean.free (h : s.Clean) (hrest : ¬ s.reader.Failing → AtRest s.xfer) {status : AsyncStatus} {r : Int}
    (hr : s.reader.Failing → r ≠ 0) :
    { s.asyncFree with status, reader := .returned r }.Clean where
  length hne := absurd rfl (hne r)
  phase := by simp [Phase, Submitted, asyncFree]
  control := h.control
  misuses hfine := by
    have hfine' : ¬ s.reader.Failing := fun hfailing => hfine (hr hfailing)
    rw [asyncFree_atRest (hrest hfine')]
    exact h.misuses hfine'

theorem Clean.abandon (h : s.Clean) (hreader : ∀ i, s.reader ≠ .submitting i)
    (hlength : s.xfer.length = s.num) : s.abandon.Clean where
  length _ := hlength
  phase := h.submitted hreader
  control := h.control
  misuses hfine := absurd trivial hfine

theorem Clean.handled {r : Handled} (h : s.Clean) (hstep : s.handled r = some t) : t.Clean := by
  have hphase := h.phase
  unfold Phase at hphase
  unfold Async.handled at hstep
  split at hstep
  · rename_i hr
    simp only [hr] at hphase
    have hreader : ∀ i, s.reader ≠ .submitting i := by simp [hr]
    have hlength := h.length (by simp [hr])
    split at hstep
    · obtain rfl := Option.some.inj hstep
      exact h
    · obtain rfl := Option.some.inj hstep
      exact h.abandon hreader hlength
    · split at hstep
      · obtain rfl := Option.some.inj hstep
        exact ⟨fun _ => hlength, ⟨hphase.1, hphase.2, fun _ => by simp [AtRest]⟩, h.control,
          fun _ => h.misuses (by simp [hr, Reader.Failing])⟩
      · obtain rfl := Option.some.inj hstep
        exact h.abandon hreader hlength
      · rename_i hinactive
        exact absurd hinactive hphase.1
      · obtain rfl := Option.some.inj hstep
        exact h
      · obtain rfl := Option.some.inj hstep
        exact h
  · rename_i hr
    simp [hr] at hphase
  · rename_i hr
    simp only [hr] at hphase
    obtain rfl := Option.some.inj hstep
    exact h.free (fun _ => hphase.2) (by simp [hr, Reader.Failing])
  · rename_i tries hr
    simp only [hr] at hphase
    split at hstep
    · obtain rfl := Option.some.inj hstep
      exact ⟨fun _ => h.length (by simp [hr]), hphase, h.control, fun hfine => absurd trivial hfine⟩
    · cases hstep
  · cases hstep

theorem Clean.read (h : s.Clean) (hstep : s.read = some t) : t.Clean := by
  have hphase := h.phase
  unfold Phase at hphase
  unfold Async.read at hstep
  split at hstep
  · rename_i i hr
    simp only [hr] at hphase
    have hlength := h.length (by simp [hr])
    split at hstep
    · rename_i hlast
      obtain rfl := Option.some.inj hstep
      refine ⟨fun _ => hlength, ⟨by simp, ?_⟩, h.control, fun _ => h.misuses (by simp [hr, Reader.Failing])⟩
      rw [← List.take_length (l := s.xfer), hlength, ← hlast]
      exact hphase.2.2.1
    · cases hstep
  · rename_i i semafor hr
    simp only [hr] at hphase
    obtain ⟨hstatus, hsubmitted, hrest⟩ := hphase
    have hlength := h.length (by simp [hr])
    have hmisuses := h.misuses (by simp [hr, Reader.Failing])
    split at hstep
    · obtain ⟨⟨u, cancelled⟩, hvisit, rfl⟩ := Option.map_eq_some_iff.mp hstep
      obtain ⟨rfl, hslot⟩ := visit_live hsubmitted hvisit
      refine ⟨fun _ => hlength, ⟨hstatus, hsubmitted, fun hboth => ?_⟩, h.control, fun _ => hmisuses⟩
      obtain ⟨hsemafor, hcancelled⟩ := Bool.and_eq_true_iff.mp hboth
      exact atRest_take_succ (hrest hsemafor) (hslot hcancelled)
    · rename_i hlast
      split at hstep
      · rename_i hsemafor
        obtain rfl := Option.some.inj hstep
        refine ⟨fun _ => hlength, ⟨hsubmitted, ?_⟩, h.control, fun _ => hmisuses⟩
        have hall := hrest hsemafor
        rwa [List.take_of_length_le (by omega)] at hall
      · obtain rfl := Option.some.inj hstep
        exact ⟨fun _ => hlength, ⟨hstatus, hsubmitted⟩, h.control, fun _ => hmisuses⟩
  · rename_i i hr
    simp only [hr] at hphase
    have hlength := h.length (by simp [hr])
    split at hstep
    · obtain ⟨slot, -, rfl⟩ := Option.map_eq_some_iff.mp hstep
      have hsame : (slot.elim s s.cancelTransfer).xfer = s.xfer ∧
          (slot.elim s s.cancelTransfer).num = s.num ∧
          (slot.elim s s.cancelTransfer).control = s.control := by
        cases slot with
        | none => exact ⟨rfl, rfl, rfl⟩
        | some urb =>
          rw [Option.elim, cancelTransfer]
          split <;> exact ⟨rfl, rfl, rfl⟩
      obtain ⟨hxfer, hnum, hcontrol⟩ := hsame
      refine ⟨fun _ => ?_, ?_, ?_, fun hfine => absurd trivial hfine⟩
      · rw [hxfer, hnum, hlength]
      · change Submitted (slot.elim s s.cancelTransfer).xfer
        rw [hxfer]
        exact hphase
      · rw [hcontrol]
        exact h.control
    · obtain rfl := Option.some.inj hstep
      exact ⟨fun _ => hlength, hphase, h.control, fun hfine => absurd trivial hfine⟩
  · rename_i tries hr
    split at hstep
    · cases hstep
    · obtain rfl := Option.some.inj hstep
      exact h.free (fun hfine => absurd (by rw [hr]; trivial) hfine) (by simp)
  · cases hstep

theorem libusbCallback_eq (s : Async) (i : Nat) (status : TransferStatus) (submitted : Bool) :
    ∃ slot after, s.libusbCallback i status submitted =
        { s with xfer := s.xfer.set i slot, status := after } ∧
      (∀ urb, slot = some urb → urb.Live) ∧
      (after = s.status ∨ s.status = .running ∧ after = .failed) := by
  have hdropped : ∃ slot after, (s.put i none).fail =
        { s with xfer := s.xfer.set i slot, status := after } ∧
      (∀ urb, slot = some urb → urb.Live) ∧
      (after = s.status ∨ s.status = .running ∧ after = .failed) := by
    by_cases hrunning : s.status = .running
    · exact ⟨none, .failed, if_pos hrunning, nofun, Or.inr ⟨hrunning, rfl⟩⟩
    · exact ⟨none, s.status, if_neg hrunning, nofun, Or.inl rfl⟩
  have hkept : ∀ status, status ≠ .cancelled →
      ∀ urb, some (Urb.mk status true) = some urb → urb.Live := by
    intro status hne urb hurb
    obtain rfl := Option.some.inj hurb
    simp [Urb.Live, hne]
  cases status with
  | cancelled =>
    refine ⟨some ⟨.cancelled, false⟩, s.status, rfl, ?_, Or.inl rfl⟩
    intro urb hurb
    obtain rfl := Option.some.inj hurb
    simp [Urb.Live]
  | noDevice => exact hdropped
  | overflow =>
    cases submitted with
    | true => exact ⟨_, s.status, rfl, hkept .overflow (by simp), Or.inl rfl⟩
    | false => exact ⟨none, s.status, rfl, nofun, Or.inl rfl⟩
  | _ =>
    cases submitted with
    | true => exact ⟨_, s.status, rfl, hkept _ (by simp), Or.inl rfl⟩
    | false => exact hdropped

theorem Clean.completed {status : TransferStatus} {submitted : Bool} (h : s.Clean)
    (hstep : s.completed i status submitted = some t) : t.Clean := by
  unfold Async.completed at hstep
  split at hstep
  · rename_i urb hslot
    split at hstep
    · rename_i hflight
      obtain rfl := Option.some.inj hstep
      obtain ⟨slot, after, heq, hlive, hafter⟩ := libusbCallback_eq s i status submitted
      rw [heq]
      have hphase := h.phase
      have hactive : s.status ≠ .inactive → after ≠ .inactive := by
        rcases hafter with rfl | ⟨-, rfl⟩
        · exact id
        · exact fun _ => by decide
      refine ⟨fun hne => by rw [List.length_set]; exact h.length hne, ?_, h.control, h.misuses⟩
      unfold Phase at hphase ⊢
      cases hr : s.reader with
      | submitting k =>
        simp only [hr] at hphase ⊢
        obtain ⟨hstatus, hidle, htake, hdrop⟩ := hphase
        have hlt : i < k := by
          by_contra hge
          have hunused := hdrop urb (mem_drop_of_getElem? hslot (by omega))
          rw [hunused] at hflight
          cases hflight
        have hsame : after = s.status := by
          rcases hafter with hafter | ⟨hrunning, -⟩
          · exact hafter
          · rw [hstatus] at hrunning
            cases hrunning
        refine ⟨hsame.trans hstatus, hidle, ?_, ?_⟩
        · rw [List.take_set]
          exact htake.set i hlive
        · rw [List.drop_set_of_lt hlt]
          exact hdrop
      | fallingBack => simp [hr] at hphase
      | waiting =>
        simp only [hr] at hphase ⊢
        exact ⟨hactive hphase.1, hphase.2.set i hlive⟩
      | cancelling k semafor =>
        simp only [hr] at hphase ⊢
        obtain ⟨hstatus, hsubmitted, hrest⟩ := hphase
        exact ⟨hactive hstatus, hsubmitted.set i hlive,
          fun hsemafor => (hrest hsemafor).take_set hslot hflight slot⟩
      | settling =>
        simp only [hr] at hphase
        have hidle := hphase.2 urb (List.mem_of_getElem? hslot)
        rw [hflight] at hidle
        cases hidle
      | abandoning k =>
        simp only [hr] at hphase ⊢
        exact hphase.set i hlive
      | draining tries =>
        simp only [hr] at hphase ⊢
        exact hphase.set i hlive
      | returned r =>
        simp only [hr] at hphase ⊢
        exact hphase.set i hlive
    · cases hstep
  · cases hstep

theorem Clean.cancelAsync (h : s.Clean) : s.cancelAsync.Clean := by
  unfold Async.cancelAsync
  split
  · rename_i hactive
    refine h.of_status (by decide) (h.not_submitting (Or.inl ?_))
    rcases hactive with hactive | hactive <;> rw [hactive] <;> decide
  · exact h

theorem Clean.giveUp (h : s.Clean) : s.giveUp.Clean := by
  unfold Async.giveUp
  split
  · exact h
  · rename_i hactive
    exact h.of_status (by decide) (h.not_submitting (Or.inl fun hidle => hactive (Or.inl hidle)))

theorem Clean.stop (h : s.Clean) (hstep : s.stop = some t) : t.Clean := by
  unfold Async.stop at hstep
  split at hstep
  · obtain rfl := Option.some.inj hstep
    split
    · rename_i hrunning
      exact h.of_control trivial (h.not_submitting (Or.inl (by rw [hrunning]; decide)))
    · exact h
  · cases hstep

theorem Clean.stopHandled {r : Handled} (h : s.Clean) (hstep : s.stopHandled r = some t) :
    t.Clean := by
  unfold Async.stopHandled at hstep
  split at hstep
  · rename_i hcontrol
    obtain rfl := Option.some.inj hstep
    refine h.of_control ?_ (h.not_submitting (Or.inr (by rw [hcontrol]; decide)))
    split <;> trivial
  · cases hstep

theorem Clean.controlStep (h : s.Clean) (hstep : s.controlStep = some t) : t.Clean := by
  have hstops := h.control
  unfold Async.controlStep at hstep
  split at hstep
  · rename_i i semafor hcontrol
    have hreader := h.not_submitting (Or.inr (by rw [hcontrol]; nofun))
    split at hstep
    · obtain ⟨⟨u, cancelled⟩, hvisit, rfl⟩ := Option.map_eq_some_iff.mp hstep
      obtain ⟨rfl, -⟩ := visit_live (h.submitted hreader) hvisit
      exact h.of_control trivial hreader
    · split at hstep
      · obtain rfl := Option.some.inj hstep
        refine h.of_control ?_ hreader
        split <;> trivial
      · obtain rfl := Option.some.inj hstep
        exact h.of_control trivial hreader
  · rename_i hcontrol
    obtain rfl := Option.some.inj hstep
    have hreader := h.not_submitting (Or.inr (by rw [hcontrol]; nofun))
    exact (h.of_status (by decide) hreader).of_control trivial hreader
  · rename_i i hcontrol
    rw [hcontrol] at hstops
    exact hstops.elim
  · rename_i hcontrol
    rw [hcontrol] at hstops
    exact hstops.elim
  · cases hstep

end Steps

-- a stream that was never started again, and no isochronous transfer refused after the first one
def Plain (s : Async) (e : AsyncEvent) : Prop :=
  e ≠ .start ∧ (e = .submit false → s.kind = .bulk ∨ s.reader = .submitting 0)

theorem Clean.step {s t : Async} {e : AsyncEvent} (h : s.Clean) (hplain : s.Plain e)
    (hstep : s.step e = some t) : t.Clean := by
  cases e with
  | submit submitted => exact h.submit (fun hrefused => hplain.2 (by rw [hrefused])) hstep
  | handled r => exact h.handled hstep
  | read => exact h.read hstep
  | completed i status submitted => exact h.completed hstep
  | cancel => exact Option.some.inj hstep ▸ h.cancelAsync
  | giveUp => exact Option.some.inj hstep ▸ h.giveUp
  | stop => exact h.stop hstep
  | start => exact absurd rfl hplain.1
  | stopHandled r => exact h.stopHandled hstep
  | resubmit submitted =>
    have hstops := h.control
    simp only [Async.step, resubmit] at hstep
    split at hstep
    · rename_i i hcontrol
      rw [hcontrol] at hstops
      exact hstops.elim
    · cases hstep
  | control => exact h.controlStep hstep

-- whatever completes when, no transfer that libusb still has is freed and none is cancelled that
-- it does not have, until the stream fails
theorem ends_cleanly (kind : TransferKind) (num : Nat) {s : Async}
    (h : Transition.Reaches step Plain (start kind num) s) (hfine : ¬ s.reader.Failing) :
    s.misuses = [] := by
  have hclean : s.Clean := h.invariant (clean_start kind num)
    fun _ _ _ _ hs hplain hstep => hs.step hplain hstep
  exact hclean.misuses hfine

def cancelledRun : List AsyncEvent :=
  [.submit true, .submit true, .read, .completed 1 .completed true, .cancel, .handled .ok, .read, .read,
    .read, .completed 0 .cancelled true, .completed 1 .completed true, .handled .ok, .read, .read, .read,
    .completed 1 .cancelled true, .handled .ok, .read, .read, .read, .handled .ok]

def ended : Async := ⟨.inactive, .bulk, 2, [], .returned 0, .idle, []⟩

theorem ends_cleanly_cancelled : Transition.run step (start .bulk 2) cancelledRun = some ended ∧
    ended.misuses = [] := by
  have hplain : ∀ e ∈ cancelledRun, ∀ s, Plain s e := by
    intro e he s
    simp only [cancelledRun, List.mem_cons, List.not_mem_nil, or_false] at he
    rcases he with rfl | rfl | rfl | rfl | rfl | rfl | rfl | rfl | rfl | rfl | rfl | rfl | rfl | rfl |
      rfl | rfl | rfl | rfl | rfl | rfl | rfl <;> exact ⟨nofun, nofun⟩
  have hrun : Transition.run step (start .bulk 2) cancelledRun = some ended := by decide
  exact ⟨hrun, ends_cleanly .bulk 2 (Transition.reaches_run .start hplain hrun) (by simp [ended, Reader.Failing])⟩

-- no transfer is given up, and nobody but the streaming thread has a say
def Streaming (_ : Async) : AsyncEvent → Prop
  | .submit submitted => submitted = true
  | .handled r => r ≠ .failed
  | .read => True
  | .completed _ status submitted =>
    status ≠ .noDevice ∧ (submitted = true ∨ status = .overflow ∨ status = .cancelled)
  | _ => False

-- what msisdr_read_async does next, and transfers that end because they were cancelled
def Ending : AsyncEvent → Prop
  | .handled r => r = .ok
  | .read => True
  | .completed _ status _ => status = .cancelled
  | _ => False

section Rounds

variable {s : Async}

def silent (slot : Option Urb) : Bool := slot.all fun urb => urb.status = .cancelled

theorem visit_eq (h : Submitted s.xfer) {i : Nat} (hi : i < s.xfer.length) :
    s.visit i = some (s, silent s.xfer[i]) := by
  unfold visit
  rw [List.getElem?_eq_getElem hi]
  generalize hslot : s.xfer[i] = slot
  have hmem : slot ∈ s.xfer := hslot ▸ List.getElem_mem hi
  cases slot with
  | none => rfl
  | some urb =>
    by_cases hcancelled : urb.status = .cancelled
    · simp [silent, hcancelled]
    · have hflight : urb.inFlight = true := (h urb hmem).mpr hcancelled
      simp [silent, hcancelled, cancelTransfer, hflight]

-- one look at every slot from the `i`th on
theorem run_visits (h : Submitted s.xfer) (hlength : s.xfer.length = s.num) (m : Nat) {i : Nat}
    {semafor : Bool} (hi : i + m = s.num) (hr : s.reader = .cancelling i semafor) :
    Transition.run step s (List.replicate m .read) =
      some { s with
        reader := .cancelling s.num (semafor && (s.xfer.drop i).all silent) } := by
  induction m generalizing s i semafor with
  | zero =>
    obtain rfl : i = s.num := by omega
    have hnone : s.xfer.drop s.num = [] := List.drop_eq_nil_of_le (by omega)
    simp [Transition.run, hnone, ← hr]
  | succ m ih =>
    have hlt : i < s.num := by omega
    have hlt' : i < s.xfer.length := by omega
    have hread : s.step .read =
        some { s with reader := .cancelling (i + 1) (semafor && silent s.xfer[i]) } := by
      rw [step, read, hr]
      simp only [hlt, if_true, visit_eq h hlt', Option.map_some]
    have hrest := ih (s := { s with reader := .cancelling (i + 1) (semafor && silent s.xfer[i]) })
      h hlength (show i + 1 + m = s.num by omega) rfl
    rw [List.replicate_succ, Transition.run, hread, Option.bind_some, hrest,
      List.drop_eq_getElem_cons hlt', List.all_cons, Bool.and_assoc]

theorem run_round (h : Submitted s.xfer) (hlength : s.xfer.length = s.num) (hr : s.reader = .waiting)
    (hstatus : s.status = .canceling) :
    Transition.run step s (.handled .ok :: List.replicate (s.num + 1) .read) =
      some (if s.xfer.all silent then { s with status := .inactive, reader := .settling }
        else s) := by
  have hhandled : s.step (.handled .ok) = some { s with reader := .cancelling 0 true } := by
    simp [step, handled, hr, hstatus]
  have hvisits := run_visits (s := { s with reader := .cancelling 0 true }) h hlength s.num
    (Nat.zero_add _) rfl
  rw [Transition.run, hhandled, Option.bind_some, List.replicate_succ', Transition.run_append, hvisits]
  simp only [Option.bind_some, Transition.run, step, read, lt_irrefl, if_false, Bool.true_and,
    List.drop_zero]
  split
  · rfl
  · rw [← hr]
    rfl

-- every transfer that libusb has ends as cancelled
theorem run_cancelled (h : Submitted s.xfer) (m : Nat) {i : Nat} (hi : i + m = s.xfer.length)
    (hsilent : (s.xfer.take i).all silent = true) :
    ∃ es xfer, es.length ≤ m ∧ (∀ e ∈ es, ∃ k, e = .completed k .cancelled true) ∧
      Transition.run step s es = some { s with xfer } ∧ xfer.length = s.xfer.length ∧
      Submitted xfer ∧ xfer.all silent = true := by
  induction m generalizing s i with
  | zero =>
    refine ⟨[], s.xfer, le_rfl, by simp, rfl, rfl, h, ?_⟩
    rwa [List.take_of_length_le (by omega)] at hsilent
  | succ m ih =>
    have hlt : i < s.xfer.length := by omega
    by_cases hslot : silent s.xfer[i] = true
    · have hsilent' : (s.xfer.take (i + 1)).all silent = true := by
        rw [List.take_add_one, List.getElem?_eq_getElem hlt, List.all_append, hsilent]
        simp [hslot]
      obtain ⟨es, xfer, hlen, hes, hrun⟩ := ih h (show i + 1 + m = s.xfer.length by omega) hsilent'
      exact ⟨es, xfer, by omega, hes, hrun⟩
    · obtain ⟨urb, hurb⟩ : ∃ urb, s.xfer[i] = some urb := by
        cases hnone : s.xfer[i] with
        | none => exact absurd (by rw [hnone]; rfl) hslot
        | some urb => exact ⟨urb, rfl⟩
      have hget : s.xfer[i]? = some (some urb) := by rw [List.getElem?_eq_getElem hlt, hurb]
      have hflight : urb.inFlight = true :=
        (h urb (List.mem_of_getElem? hget)).mpr fun hcancelled => hslot (by simp [hurb, silent, hcancelled])
      have hstep : s.step (.completed i .cancelled true) = some (s.put i (some ⟨.cancelled, false⟩)) := by
        simp [step, completed, hget, hflight, libusbCallback]
      have hlive : ∀ urb, some (Urb.mk .cancelled false) = some urb → urb.Live := by
        intro urb hurb
        obtain rfl := Option.some.inj hurb
        simp [Urb.Live]
      have hsilent' : ((s.xfer.set i (some ⟨.cancelled, false⟩)).take (i + 1)).all silent = true := by
        rw [List.take_set, List.take_add_one, hget, List.set_append_right _ _ (by simp),
          List.all_append, hsilent]
        simp [List.length_take, Nat.min_eq_left hlt.le, silent]
      obtain ⟨es, xfer, hlen, hes, hrun, hsame, hrest⟩ :=
        ih (s := s.put i (some ⟨.cancelled, false⟩)) (h.set i hlive) (i := i + 1)
          (by simp [put]; omega) hsilent'
      refine ⟨.completed i .cancelled true :: es, xfer, by simpa using hlen, ?_, ?_, ?_, hrest⟩
      · rw [List.forall_mem_cons]
        exact ⟨⟨i, rfl⟩, hes⟩
      · rw [Transition.run, hstep]
        exact hrun
      · rw [hsame, put, List.length_set]

theorem run_settling (s : Async) (h : AtRest s.xfer) :
    Transition.run step { s with status := .inactive, reader := .settling } [.handled .ok] =
      some { s with status := .inactive, xfer := [], reader := .returned 0 } := by
  have hfree := asyncFree_atRest (s := { s with status := .inactive, reader := .settling }) h
  rw [Transition.run, step, handled, hfree]
  rfl

theorem atRest_of_silent {slots : List (Option Urb)} (h : Submitted slots)
    (hsilent : slots.all silent = true) : AtRest slots := by
  intro urb hurb
  have hcancelled : urb.status = .cancelled := by simpa [silent] using List.all_eq_true.mp hsilent _ hurb
  simpa [Urb.Live, hcancelled] using h urb hurb

-- the loop of a stream that was told to end goes round twice at most
theorem run_ending (h : Submitted s.xfer) (hlength : s.xfer.length = s.num) (hr : s.reader = .waiting)
    (hstatus : s.status = .canceling) :
    ∃ es t, (∀ e ∈ es, Ending e) ∧ es.length ≤ 3 * s.num + 5 ∧ Transition.run step s es = some t ∧
      t.reader = .returned 0 ∧ t.misuses = s.misuses := by
  have hround : ∀ e ∈ AsyncEvent.handled .ok :: List.replicate (s.num + 1) .read, Ending e := by
    intro e he
    rcases List.mem_cons.mp he with rfl | he
    · rfl
    · rw [List.eq_of_mem_replicate he]
      trivial
  have hfirst := run_round h hlength hr hstatus
  by_cases hsilent : s.xfer.all silent = true
  · rw [if_pos hsilent] at hfirst
    refine ⟨(.handled .ok :: List.replicate (s.num + 1) .read) ++ [.handled .ok],
      { s with status := .inactive, xfer := [], reader := .returned 0 }, ?_, ?_, ?_, rfl, rfl⟩
    · rw [List.forall_mem_append]
      exact ⟨hround, by simp [Ending]⟩
    · simp
      omega
    · rw [Transition.run_append, hfirst, Option.bind_some]
      exact run_settling s (atRest_of_silent h hsilent)
  · rw [if_neg hsilent] at hfirst
    obtain ⟨es, xfer, hlen, hes, hrun, hsame, hsubmitted, hsilent'⟩ :=
      run_cancelled h s.xfer.length (Nat.zero_add _) (by simp)
    have hsecond := run_round (s := { s with xfer }) hsubmitted (hsame.trans hlength) hr hstatus
    rw [if_pos hsilent'] at hsecond
    refine ⟨(.handled .ok :: List.replicate (s.num + 1) .read) ++ (es ++
      ((.handled .ok :: List.replicate (s.num + 1) .read) ++ [.handled .ok])),
      { s with status := .inactive, xfer := [], reader := .returned 0 }, ?_, ?_, ?_, rfl, rfl⟩
    · simp only [List.forall_mem_append]
      refine ⟨hround, ?_, hround, by simp [Ending]⟩
      intro e he
      obtain ⟨k, rfl⟩ := hes e he
      rfl
    · simp
      omega
    · rw [Transition.run_append, hfirst, Option.bind_some, Transition.run_append, hrun, Option.bind_some,
        Transition.run_append, hsecond, Option.bind_some]
      exact run_settling { s with xfer } (atRest_of_silent hsubmitted hsilent')

end Rounds

-- a stream that nothing happened to
structure Undisturbed (s : Async) : Prop where
  clean : s.Clean
  idle : s.control = .idle
  reader : (∃ i, s.reader = .submitting i) ∧ s.status = .inactive ∨
    s.reader = .waiting ∧ s.status = .running

theorem libusbCallback_put {status : TransferStatus} {submitted : Bool}
    (h : status ≠ .noDevice ∧ (submitted = true ∨ status = .overflow ∨ status = .cancelled))
    (s : Async) (i : Nat) : ∃ slot, s.libusbCallback i status submitted = s.put i slot := by
  obtain ⟨hdevice, hkept⟩ := h
  cases status with
  | cancelled => exact ⟨_, rfl⟩
  | noDevice => exact absurd rfl hdevice
  | overflow => exact ⟨_, rfl⟩
  | _ =>
    obtain rfl : submitted = true := by simpa using hkept
    exact ⟨_, rfl⟩

theorem Streaming.plain {s : Async} {e : AsyncEvent} (h : s.Streaming e) : s.Plain e := by
  cases e with
  | submit submitted =>
    obtain rfl : submitted = true := h
    exact ⟨nofun, nofun⟩
  | start => exact h.elim
  | _ => exact ⟨nofun, nofun⟩

theorem undisturbed_start (kind : TransferKind) (num : Nat) : (start kind num).Undisturbed :=
  ⟨clean_start kind num, rfl, Or.inl ⟨⟨0, rfl⟩, rfl⟩⟩

theorem Undisturbed.step {s t : Async} {e : AsyncEvent} (h : s.Undisturbed) (he : s.Streaming e)
    (hstep : s.step e = some t) : t.Undisturbed := by
  have hclean : t.Clean := h.clean.step he.plain hstep
  obtain ⟨-, hidle, hreader⟩ := h
  cases e with
  | submit submitted =>
    obtain rfl : submitted = true := he
    simp only [Async.step, submit] at hstep
    split at hstep
    · rename_i i hr
      split at hstep
      · obtain rfl := Option.some.inj hstep
        have hstatus : s.status = .inactive := by simpa [hr] using hreader
        exact ⟨hclean, hidle, Or.inl ⟨⟨i + 1, rfl⟩, hstatus⟩⟩
      · cases hstep
    · cases hstep
  | handled r =>
    simp only [Async.step, handled] at hstep
    rcases hreader with ⟨⟨i, hr⟩, -⟩ | ⟨hr, hstatus⟩
    · rw [hr] at hstep
      cases hstep
    · simp only [hr, hstatus] at hstep
      cases r with
      | failed => exact absurd rfl he
      | _ =>
        obtain rfl := Option.some.inj hstep
        exact ⟨hclean, hidle, Or.inr ⟨hr, hstatus⟩⟩
  | read =>
    simp only [Async.step, read] at hstep
    rcases hreader with ⟨⟨i, hr⟩, -⟩ | ⟨hr, -⟩
    · simp only [hr] at hstep
      split at hstep
      · obtain rfl := Option.some.inj hstep
        exact ⟨hclean, hidle, Or.inr ⟨rfl, rfl⟩⟩
      · cases hstep
    · rw [hr] at hstep
      cases hstep
  | completed i status submitted =>
    obtain ⟨slot, heq⟩ := libusbCallback_put he s i
    simp only [Async.step, completed, heq] at hstep
    split at hstep
    · split at hstep
      · obtain rfl := Option.some.inj hstep
        exact ⟨hclean, hidle, hreader⟩
      · cases hstep
    · cases hstep
  | _ => exact he.elim

theorem Undisturbed.reaches {s t : Async} (hs : s.Undisturbed)
    (h : Transition.Reaches Async.step Streaming s t) : t.Undisturbed :=
  h.invariant hs fun _ _ _ _ hs he hstep => hs.step he hstep

end Async

end Msisdr
end SdrServer
