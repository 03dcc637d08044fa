import SdrServer.Foundation.Transition
import SdrServer.Logger.Model

namespace SdrServer
namespace Logger

def contents (files : Files) (path : List UInt8) : List UInt8 := (files path).getD []

structure Recent (path : List UInt8) (s : State) (g : Generations (List UInt8)) : Prop where
  all : g.all = s.entries
  kept : contents s.files (path ++ dotOld) = g.kept.flatten
  recent : contents s.files path = g.recent.flatten
  -- no entry is given up before a whole generation has followed it
  older : g.kept = [] → g.older = []

structure Bounded (path : List UInt8) (maxBytes : Nat) (s : State) : Prop where
  size : (contents s.files path).length < maxBytes
  recent : ∃ g, Recent path s g

def entryOf : Event → Option (List UInt8)
  | .logInfo ts message => some (entry logInfoPriority ts message)
  | .logErr ts message => some (entry logErrPriority ts message)
  | _ => none

-- the entry that fills the file also fills the count of bytes since log_init
def Counted (maxBytes : Nat) (s : State) (e : Event) : Prop :=
  ∀ bytes, entryOf e = some bytes → maxBytes ≤ s.initial + (s.sWritten + bytes.length) →
    maxBytes ≤ s.sWritten + bytes.length

-- s_written counts what the open file has got since `initial`
structure Tracked (path : List UInt8) (maxBytes : Nat) (s : State) : Prop where
  recent : ∃ g, Recent path s g
  opened : ∀ p, s.sFile = some p → p = path ∧ s.sPath = path ∧ s.sMaxBytes = maxBytes ∧
    s.sWritten < maxBytes ∧ (contents s.files path).length = s.initial + s.sWritten

theorem dotOld_ne (path : List UInt8) : path ++ dotOld ≠ path := by
  intro h
  have hlen := congrArg List.length h
  simp [dotOld] at hlen

-- an entry written and not yet looked at by maybe_rotate
def appended (path bytes : List UInt8) (s : State) : State :=
  { s with
    files := Function.update s.files path (some (contents s.files path ++ bytes))
    sWritten := s.sWritten + bytes.length
    entries := s.entries ++ [bytes] }

theorem contents_truncated (files : Files) (path : List UInt8) :
    contents (Function.update files path (some [])) path = [] := by
  rw [contents, Function.update_self]
  rfl

section Put

variable {s : State} {path : List UInt8}

theorem put_eq (hopen : s.sFile = some path) (bytes : List UInt8) :
    s.put bytes =
      { s with
        files := Function.update s.files path (some (contents s.files path ++ bytes))
        sWritten := s.sWritten + bytes.length } := by
  rw [State.put, hopen]
  rfl

theorem put_put (hopen : s.sFile = some path) (bytes more : List UInt8) :
    (s.put bytes).put more = s.put (bytes ++ more) := by
  have hput : (s.put bytes).sFile = some path := by rw [put_eq hopen]; exact hopen
  rw [put_eq hput, put_eq hopen, put_eq hopen]
  simp only [contents, Function.update_self, Function.update_idem, Option.getD_some,
    List.append_assoc, List.length_append, Nat.add_assoc]

theorem writeEntry_eq (hopen : s.sFile = some path) (priority : Nat) (ts message : List UInt8) :
    s.writeEntry priority ts message =
      (appended path (entry priority ts message) s).maybeRotate := by
  rw [State.writeEntry, hopen]
  dsimp only
  rw [put_put hopen, put_put hopen, put_eq hopen]
  rfl

end Put

section Step

variable {s t : State} {path : List UInt8} {maxBytes : Nat}

theorem Recent.write {g : Generations (List UInt8)} (h : Recent path s g) (bytes : List UInt8) :
    Recent path (appended path bytes s) (g.write bytes) where
  all := by
    rw [Generations.all_write, h.all]
    rfl
  kept := by
    change contents (Function.update s.files path _) (path ++ dotOld) = _
    rw [contents, Function.update_of_ne (dotOld_ne path)]
    exact h.kept
  recent := by
    change contents (Function.update s.files path _) path = _
    rw [contents, Function.update_self, Option.getD_some, h.recent]
    simp [Generations.write]
  older := h.older

theorem appended_size (hlen : (contents s.files path).length = s.initial + s.sWritten)
    (bytes : List UInt8) :
    (contents (appended path bytes s).files path).length =
      s.initial + (s.sWritten + bytes.length) := by
  change (contents (Function.update s.files path _) path).length = _
  rw [contents, Function.update_self, Option.getD_some, List.length_append, hlen, Nat.add_assoc]

theorem maybeRotate_below (hopen : s.sFile = some path) (hbelow : s.sWritten < s.sMaxBytes) :
    s.maybeRotate = s := by
  rw [State.maybeRotate, hopen]
  exact if_pos hbelow

-- the file becomes <path>.old and a new one is open
def rotated (path bytes : List UInt8) (s : State) : State :=
  { s with
    files := Function.update (Function.update s.files (path ++ dotOld) (some bytes)) path (some [])
    sFile := some path
    sWritten := 0
    initial := 0 }

theorem maybeRotate_full (hopen : s.sFile = some path) (hpath : path.length < 512)
    (hsPath : s.sPath = path) (hfull : ¬ s.sWritten < s.sMaxBytes) {bytes : List UInt8}
    (hbytes : s.files path = some bytes) : s.maybeRotate = rotated path bytes s := by
  have hold : (path ++ dotOld).take 519 = path ++ dotOld := by
    apply List.take_of_length_le
    simp only [dotOld, List.length_append, List.length_cons, List.length_nil]
    omega
  rw [State.maybeRotate, hopen]
  dsimp only
  rw [if_neg hfull, hsPath, hold, rename, if_neg (dotOld_ne path).symm, hbytes, fopenWrite,
    Function.update_idem, rotated, hsPath]

theorem Recent.rotate {g : Generations (List UInt8)} (h : Recent path s g)
    (hnonempty : g.recent ≠ []) {bytes : List UInt8} (hbytes : s.files path = some bytes) :
    Recent path (rotated path bytes s) g.rotate where
  all := by
    rw [Generations.all_rotate, h.all]
    rfl
  kept := by
    change contents (Function.update (Function.update s.files (path ++ dotOld) (some bytes)) path _)
      (path ++ dotOld) = _
    have hrecent := h.recent
    rw [contents, hbytes, Option.getD_some] at hrecent
    rw [contents, Function.update_of_ne (dotOld_ne path), Function.update_self, Option.getD_some,
      hrecent]
    rfl
  recent := contents_truncated _ path
  older := fun hnone => absurd hnone hnonempty

theorem write_cases (hpath : path.length < 512) (h : Tracked path maxBytes s)
    (hopen : s.sFile = some path) (bytes : List UInt8) :
    (s.sWritten + bytes.length < maxBytes ∧
      (appended path bytes s).maybeRotate = appended path bytes s) ∨
    (maxBytes ≤ s.sWritten + bytes.length ∧
      (appended path bytes s).maybeRotate =
        rotated path (contents s.files path ++ bytes) (appended path bytes s)) := by
  obtain ⟨-, hsPath, rfl, -, -⟩ := h.opened path hopen
  rcases Nat.lt_or_ge (s.sWritten + bytes.length) s.sMaxBytes with hbelow | hfull
  · exact Or.inl ⟨hbelow, maybeRotate_below hopen hbelow⟩
  · have hrotated := maybeRotate_full (s := appended path bytes s) hopen hpath hsPath
      (Nat.not_lt_of_le hfull) (Function.update_self ..)
    exact Or.inr ⟨hfull, hrotated⟩

theorem tracked_write (hpath : path.length < 512) (hmax : 0 < maxBytes)
    (h : Tracked path maxBytes s) (hopen : s.sFile = some path) (bytes : List UInt8) :
    Tracked path maxBytes (appended path bytes s).maybeRotate := by
  obtain ⟨-, hsPath, hsMax, -, hlen⟩ := h.opened path hopen
  obtain ⟨g, hrecent⟩ := h.recent
  have hwrite := hrecent.write bytes
  rcases write_cases hpath h hopen bytes with ⟨hbelow, hsame⟩ | ⟨-, hrotated⟩
  · rw [hsame]
    refine ⟨⟨g.write bytes, hwrite⟩, ?_⟩
    intro q hq
    obtain rfl : path = q := Option.some.inj (hopen.symm.trans hq)
    exact ⟨rfl, hsPath, hsMax, hbelow, appended_size hlen bytes⟩
  · rw [hrotated]
    have hnonempty : (g.write bytes).recent ≠ [] := by simp [Generations.write]
    refine ⟨⟨(g.write bytes).rotate, hwrite.rotate hnonempty (Function.update_self ..)⟩, ?_⟩
    intro q hq
    obtain rfl := Option.some.inj hq
    exact ⟨rfl, hsPath, hsMax, hmax, congrArg List.length (contents_truncated _ path)⟩

theorem size_write (hpath : path.length < 512) (hmax : 0 < maxBytes) (h : Tracked path maxBytes s)
    (hopen : s.sFile = some path) {bytes : List UInt8}
    (hcounted : maxBytes ≤ s.initial + (s.sWritten + bytes.length) →
      maxBytes ≤ s.sWritten + bytes.length) :
    (contents (appended path bytes s).maybeRotate.files path).length < maxBytes := by
  obtain ⟨-, -, -, -, hlen⟩ := h.opened path hopen
  rcases write_cases hpath h hopen bytes with ⟨hbelow, hsame⟩ | ⟨-, hrotated⟩
  · rw [hsame, appended_size hlen]
    exact Nat.lt_of_not_le fun hle => Nat.not_le_of_lt hbelow (hcounted hle)
  · rw [hrotated, rotated]
    dsimp only
    rw [contents_truncated]
    exact hmax

theorem overfull_write (hpath : path.length < 512) (h : Tracked path maxBytes s)
    (hopen : s.sFile = some path) {bytes : List UInt8}
    (hfull : maxBytes ≤ s.initial + (s.sWritten + bytes.length))
    (huncounted : ¬ maxBytes ≤ s.sWritten + bytes.length) :
    ¬ Bounded path maxBytes (appended path bytes s).maybeRotate := by
  obtain ⟨-, -, -, -, hlen⟩ := h.opened path hopen
  rcases write_cases hpath h hopen bytes with ⟨-, hsame⟩ | ⟨hle, -⟩
  · rw [hsame]
    intro hbounded
    have hsize := hbounded.size
    rw [appended_size hlen] at hsize
    omega
  · exact absurd hle huncounted

theorem contents_fopenAppend (files : Files) (path p : List UInt8) :
    contents (fopenAppend files path) p = contents files p := by
  by_cases hp : p = path
  · subst hp
    rw [contents, fopenAppend, Function.update_self]
    rfl
  · rw [contents, fopenAppend, Function.update_of_ne hp]
    rfl

theorem tracked_logInit (hpath : path.length < 512) (hmax : 0 < maxBytes)
    (h : Tracked path maxBytes s) : Tracked path maxBytes (s.logInit path maxBytes) := by
  obtain ⟨g, hrecent⟩ := h.recent
  refine ⟨⟨g, hrecent.all, ?_, ?_, hrecent.older⟩, ?_⟩
  · exact (contents_fopenAppend ..).trans hrecent.kept
  · exact (contents_fopenAppend ..).trans hrecent.recent
  · intro p hp
    obtain rfl := Option.some.inj hp
    refine ⟨rfl, List.take_of_length_le (by omega), if_pos (by omega), hmax, ?_⟩
    exact congrArg List.length (contents_fopenAppend ..)

theorem step_entry {e : Event} {bytes : List UInt8} (hs : Tracked path maxBytes s)
    (he : entryOf e = some bytes) (h : s.step path maxBytes e = some t) :
    s.sFile = some path ∧ t = (appended path bytes s).maybeRotate := by
  have hwrite : ∀ (priority : Nat) (ts message : List UInt8),
      (if s.sFile = none then none else some (s.writeEntry priority ts message)) = some t →
      s.sFile = some path ∧ t = (appended path (entry priority ts message) s).maybeRotate := by
    intro priority ts message hstep
    split at hstep
    · cases hstep
    · rename_i hopen
      obtain ⟨p, hp⟩ := Option.ne_none_iff_exists'.mp hopen
      obtain ⟨rfl, -⟩ := hs.opened p hp
      obtain rfl := Option.some.inj hstep
      exact ⟨hp, writeEntry_eq hp priority ts message⟩
  cases e with
  | logInfo ts message =>
    obtain rfl := Option.some.inj he
    exact hwrite _ _ _ h
  | logErr ts message =>
    obtain rfl := Option.some.inj he
    exact hwrite _ _ _ h
  | _ => cases he

theorem step_other {e : Event} (he : entryOf e = none) (h : s.step path maxBytes e = some t) :
    t = s.logInit path maxBytes ∨ t = { s with sFile := none } := by
  cases e with
  | logInit =>
    simp only [State.step] at h
    split at h
    · exact Or.inl (Option.some.inj h).symm
    · cases h
  | logClose =>
    simp only [State.step] at h
    split at h
    · cases h
    · exact Or.inr (Option.some.inj h).symm
  | logInfo => cases he
  | logErr => cases he

theorem tracked_step {e : Event} (hpath : path.length < 512) (hmax : 0 < maxBytes)
    (hs : Tracked path maxBytes s) (h : s.step path maxBytes e = some t) :
    Tracked path maxBytes t := by
  cases he : entryOf e with
  | some bytes =>
    obtain ⟨hopen, rfl⟩ := step_entry hs he h
    exact tracked_write hpath hmax hs hopen bytes
  | none =>
    rcases step_other he h with rfl | rfl
    · exact tracked_logInit hpath hmax hs
    · obtain ⟨g, hrecent⟩ := hs.recent
      exact ⟨⟨g, hrecent.all, hrecent.kept, hrecent.recent, hrecent.older⟩, by simp⟩

theorem size_step {e : Event} (hpath : path.length < 512) (hmax : 0 < maxBytes)
    (hs : Tracked path maxBytes s) (hsize : (contents s.files path).length < maxBytes)
    (hcounted : Counted maxBytes s e) (h : s.step path maxBytes e = some t) :
    (contents t.files path).length < maxBytes := by
  cases he : entryOf e with
  | some bytes =>
    obtain ⟨hopen, rfl⟩ := step_entry hs he h
    exact size_write hpath hmax hs hopen (hcounted bytes he)
  | none =>
    rcases step_other he h with rfl | rfl
    · rw [State.logInit, contents_fopenAppend]
      exact hsize
    · exact hsize

theorem not_bounded_of_uncounted {e : Event} (hpath : path.length < 512)
    (hs : Tracked path maxBytes s) (huncounted : ¬ Counted maxBytes s e)
    (h : s.step path maxBytes e = some t) : ¬ Bounded path maxBytes t := by
  simp only [Counted, not_forall] at huncounted
  obtain ⟨bytes, he, hfull, hno⟩ := huncounted
  obtain ⟨hopen, rfl⟩ := step_entry hs he h
  exact overfull_write hpath hs hopen hfull hno

end Step

section Runs

variable {path : List UInt8} {maxBytes : Nat} {files : Files} {es : List Event} {s : State}

theorem contents_start (h : files path = none) : contents (State.start files).files path = [] := by
  change (files path).getD [] = []
  rw [h]
  rfl

theorem tracked_start (hfile : files path = none) (hold : files (path ++ dotOld) = none) :
    Tracked path maxBytes (State.start files) where
  recent := ⟨.empty, rfl, contents_start hold, contents_start hfile, fun _ => rfl⟩
  opened := by simp [State.start]

-- whatever the sizes, the two files hold the last entries
theorem recent_entries (hpath : path.length < 512) (hmax : 0 < maxBytes)
    (hfile : files path = none) (hold : files (path ++ dotOld) = none)
    (h : Transition.run (State.step path maxBytes) (State.start files) es = some s) :
    ∃ g, Recent path s g ∧ g.kept ++ g.recent <:+ s.entries := by
  have hstart : Tracked path maxBytes (State.start files) := tracked_start hfile hold
  have hs : Tracked path maxBytes s := (Transition.reachable_run .start h).invariant hstart
    fun _ _ _ _ hs _ hstep => tracked_step hpath hmax hs hstep
  obtain ⟨g, hg⟩ := hs.recent
  exact ⟨g, hg, hg.all ▸ g.suffix_all⟩

theorem log_stays_bounded (hpath : path.length < 512) (hmax : 0 < maxBytes)
    (hfile : files path = none) (hold : files (path ++ dotOld) = none)
    (h : Transition.run (State.step path maxBytes) (State.start files) es = some s) :
    Transition.Throughout (State.step path maxBytes) (Bounded path maxBytes) (State.start files)
        es ↔
      Transition.Along (State.step path maxBytes) (Counted maxBytes) (State.start files) es := by
  have hstart : Tracked path maxBytes (State.start files) ∧
      (contents (State.start files).files path).length < maxBytes :=
    ⟨tracked_start hfile hold, by rw [contents_start hfile]; exact hmax⟩
  apply Transition.throughout_iff (I := fun s =>
    Tracked path maxBytes s ∧ (contents s.files path).length < maxBytes) ?_ ?_ ?_ hstart h
  · intro s hs
    exact ⟨hs.2, hs.1.recent⟩
  · intro s e t hs hcounted hstep
    exact ⟨tracked_step hpath hmax hs.1 hstep, size_step hpath hmax hs.1 hs.2 hcounted hstep⟩
  · intro s e t hs huncounted hstep
    exact not_bounded_of_uncounted hpath hs.1 huncounted hstep

end Runs

theorem counted_of_fresh {maxBytes : Nat} {s : State} {e : Event} (h : s.initial = 0) :
    Counted maxBytes s e := by
  intro bytes _ hfull
  omega

-- 2024-01-01 00:00:00
def newYear : List UInt8 :=
  [50, 48, 50, 52, 45, 48, 49, 45, 48, 49, 32, 48, 48, 58, 48, 48, 58, 48, 48]

theorem recent_entries_restarted : ∃ s,
    Transition.run (State.step [97] 40) (State.start fun _ => none)
        [.logInit, .logInfo newYear [65], .logClose, .logInit, .logInfo newYear [66]] = some s ∧
      ∃ g, Recent [97] s g ∧ g.kept ++ g.recent <:+ s.entries := by
  have hrun : ∃ s, Transition.run (State.step [97] 40) (State.start fun _ => none)
      [.logInit, .logInfo newYear [65], .logClose, .logInit, .logInfo newYear [66]] = some s :=
    ⟨_, rfl⟩
  obtain ⟨s, hs⟩ := hrun
  exact ⟨s, hs, recent_entries (by decide) (by decide) rfl rfl hs⟩

theorem log_stays_bounded_fresh : ∃ s,
    Transition.run (State.step [97] 40) (State.start fun _ => none)
        [.logInit, .logInfo newYear [65]] = some s ∧
      Transition.Throughout (State.step [97] 40) (Bounded [97] 40) (State.start fun _ => none)
        [.logInit, .logInfo newYear [65]] := by
  refine ⟨_, rfl, (log_stays_bounded (by decide) (by decide) rfl rfl rfl).mpr ?_⟩
  refine ⟨counted_of_fresh rfl, ?_⟩
  intro t ht
  obtain rfl := Option.some.inj ht
  exact ⟨counted_of_fresh rfl, fun _ _ => trivial⟩

theorem restart_overfills : ∃ s,
    Transition.run (State.step [97] 40) (State.start fun _ => none)
        [.logInit, .logInfo newYear [65], .logClose, .logInit, .logInfo newYear [66]] = some s ∧
      (contents s.files [97]).length = 60 ∧ ¬ Bounded [97] 40 s := by
  have hrun : (Transition.run (State.step [97] 40) (State.start fun _ => none)
      [.logInit, .logInfo newYear [65], .logClose, .logInit, .logInfo newYear [66]]).map
        (fun s => (contents s.files [97]).length) = some 60 := by decide
  obtain ⟨s, hs, hsize⟩ := Option.map_eq_some_iff.mp hrun
  refine ⟨s, hs, hsize, ?_⟩
  intro hbounded
  have hlt := hbounded.size
  omega

end Logger
end SdrServer
