import SdrServer.Server.Ownership

namespace SdrServer
namespace Server

variable {s : Server} {links : List Nat}

-- pthread_join and free of one node
def cleaned (s : Server) (node : Nat) : Server :=
  { s with
    joined := Function.update s.joined node (s.joined node + 1)
    freed := Function.update s.freed node (s.freed node + 1) }

theorem cleaned_other {node other : Nat} (hne : other ≠ node) :
    (s.cleaned node).joined other = s.joined other ∧
      (s.cleaned node).freed other = s.freed other :=
  ⟨Function.update_of_ne hne _ _, Function.update_of_ne hne _ _⟩

theorem cleaned_active {node other : Nat} (hne : other ≠ node) (h : s.Active other) :
    (s.cleaned node).Active other := by
  obtain ⟨hjoined, hfreed⟩ := cleaned_other (s := s) hne
  exact ⟨h.1, hjoined.trans h.2.1, hfreed.trans h.2.2⟩

theorem cleaned_untouched {node other : Nat} (hne : other ≠ node) (h : s.Untouched other) :
    (s.cleaned node).Untouched other := by
  obtain ⟨hjoined, hfreed⟩ := cleaned_other (s := s) hne
  exact ⟨h.1, hjoined.trans h.2.1, hfreed.trans h.2.2⟩

theorem cleaned_retired {node other : Nat} (hactive : s.Active node)
    (hended : s.worker node = .ended)
    (h : other ≠ node → s.Untouched other ∨ s.Released other) :
    (s.cleaned node).Untouched other ∨ (s.cleaned node).Released other := by
  by_cases hne : other = node
  · subst hne
    refine Or.inr ⟨hended, ?_, ?_⟩
    · exact (Function.update_self ..).trans (by rw [hactive.2.1])
    · exact (Function.update_self ..).trans (by rw [hactive.2.2])
  · obtain ⟨hjoined, hfreed⟩ := cleaned_other (s := s) hne
    rcases h hne with hu | hr
    · exact Or.inl (cleaned_untouched hne hu)
    · exact Or.inr ⟨hr.1, hjoined.trans hr.2.1, hfreed.trans hr.2.2⟩

theorem cleaned_fresh (h : Owned s links) {node : Nat} (hactive : s.Active node) (other : Nat)
    (ho : s.nodes ≤ other) : (s.cleaned node).Untouched other ∧ s.poisonPill other = false := by
  have hne := hactive.below ho
  obtain ⟨hu, hp⟩ := h.fresh other ho
  exact ⟨cleaned_untouched hne hu, hp⟩

theorem mutex_update (h : Owned s links) {node : Nat} {worker : Worker} {mutex : Option Thread}
    (hmine : mutex = some (.worker node) ↔ worker.holds = true)
    (hothers : ∀ other, other ≠ node →
      (mutex = some (.worker other) ↔ s.mutex = some (.worker other))) (other : Nat) :
    mutex = some (.worker other) ↔ (Function.update s.worker node worker other).holds = true := by
  by_cases ho : other = node
  · subst ho
    rw [Function.update_self]
    exact hmine
  · rw [Function.update_of_ne ho]
    exact (hothers other ho).trans (h.mutexWorker other)

theorem holds_update (h : Owned s links) {node : Nat} {worker : Worker}
    (hw : worker.holds = (s.worker node).holds) (other : Nat) :
    s.mutex = some (.worker other) ↔ (Function.update s.worker node worker other).holds = true :=
  mutex_update h (by rw [hw]; exact h.mutexWorker node) (fun _ _ => Iff.rfl) other

namespace Owned

theorem creates (h : Owned s links) {node : Nat} (heq : s.acceptor = .creatingThread node) :
    Owned { s.setWorker node .reading with acceptor := .locking node } links := by
  obtain ⟨hactive, hnext, habsent, hrunning⟩ := h.of_unthreaded heq rfl rfl
  have hexpects := h.expects
  rw [heq] at hexpects
  have hsame : ∀ other, other ≠ node →
      Function.update s.worker node .reading other = s.worker other :=
    fun other ho => Function.update_of_ne ho _ _
  have hnew := h.permits_update node .reading (s.running node) (s.dsp node) (s.poisonPill node)
    fun _ => ⟨hrunning, hexpects⟩
  simp only [Function.update_eq_self] at hnew
  have hnode : ∀ other ∈ links, other ≠ node := by
    rintro other ho rfl
    exact (h.linked other ho).2.2 (by rw [heq]; rfl)
  refine ⟨h.path, h.nodup, ?_, ?_, ?_, ?_, hnew, ?_, ?_, trivial⟩
  · intro other ho
    obtain ⟨ha, hwo, -⟩ := h.linked other ho
    refine ⟨ha, fun hwa => hwo ((hsame other (hnode other ho)).symm.trans hwa), ?_⟩
    rintro ⟨⟩
    exact hnode _ ho rfl
  · rintro other ⟨⟩
    refine ⟨hactive, hnext, ?_⟩
    change Function.update s.worker node .reading node = .absent ↔ true = false
    simp
  · intro other ho hne
    have hother : other ≠ node := fun he => hne (by rw [he]; rfl)
    rcases h.retired other ho (by rw [heq]; exact hne) with hu | hr
    · exact Or.inl ⟨(hsame other hother).trans hu.1, hu.2⟩
    · exact Or.inr ⟨(hsame other hother).trans hr.1, hr.2⟩
  · intro other ho
    have hother := hactive.below ho
    obtain ⟨hu, hp⟩ := h.fresh other ho
    exact ⟨⟨(hsame other hother).trans hu.1, hu.2⟩, hp⟩
  · have hm := h.mutexAcceptor
    rw [heq] at hm
    exact hm
  · exact holds_update h (by rw [habsent]; rfl)

theorem prunes (h : Owned s links) {node : Nat} (heq : s.acceptor = .locking node)
    (hfree : s.mutex = none) :
    ∃ head next, s.cleanupTerminatedThreads = some { s with
        tcpNodes := head
        next
        joined := removed s.running links s.joined
        freed := removed s.running links s.freed } ∧
      Owned { s with
        tcpNodes := head
        next
        joined := removed s.running links s.joined
        freed := removed s.running links s.freed } (links.filter fun node => s.running node) := by
  have hended : ∀ other ∈ links, s.running other = false → s.worker other = .ended := by
    intro other ho hstopped
    obtain ⟨hactive, hw, -⟩ := h.linked other ho
    exact h.stopped_ended (by simp [hfree]) hactive.1 hw hstopped
  obtain ⟨head, next, hcleanup, hpruned⟩ := cleanup_spec h.path h.nodup hended h.fits
  have hkept : ∀ other count, (other ∉ links ∨ s.running other = true) →
      removed s.running links count other = count other := by
    intro other count hother
    refine if_neg ?_
    rintro ⟨hm, hstopped⟩
    rcases hother with hno | hrun
    · exact hno hm
    · rw [hrun] at hstopped
      cases hstopped
  have hgone : ∀ other count, other ∈ links → s.running other = false →
      removed s.running links count other = count other + 1 :=
    fun other count hm hstopped => if_pos ⟨hm, hstopped⟩
  refine ⟨head, next, hcleanup, hpruned.path, h.nodup.filter _, ?_, ?_, ?_, ?_, h.permits,
    h.mutexAcceptor, h.mutexWorker, ?_⟩
  · intro other ho
    obtain ⟨hm, hrun⟩ := List.mem_filter.mp ho
    obtain ⟨hactive, hw, hne⟩ := h.linked other hm
    refine ⟨⟨hactive.1, ?_, ?_⟩, hw, hne⟩
    · exact (hkept other _ (Or.inr hrun)).trans hactive.2.1
    · exact (hkept other _ (Or.inr hrun)).trans hactive.2.2
  · intro other ho
    obtain ⟨hactive, hnext, hw⟩ := h.current other ho
    have hout : other ∉ links := fun hm => (h.linked other hm).2.2 ho
    refine ⟨⟨hactive.1, ?_, ?_⟩, (hpruned.frame other hout).trans hnext, hw⟩
    · exact (hkept other _ (Or.inl hout)).trans hactive.2.1
    · exact (hkept other _ (Or.inl hout)).trans hactive.2.2
  · intro other ho hne
    by_cases hm : other ∈ links
    · have hstopped : s.running other = false := by
        by_contra hrun
        exact ho (List.mem_filter.mpr ⟨hm, by simpa using hrun⟩)
      obtain ⟨hactive, -, -⟩ := h.linked other hm
      refine Or.inr ⟨hended other hm hstopped, ?_, ?_⟩
      · exact (hgone other _ hm hstopped).trans (by rw [hactive.2.1])
      · exact (hgone other _ hm hstopped).trans (by rw [hactive.2.2])
    · rcases h.retired other hm hne with hu | hr
      · refine Or.inl ⟨hu.1, ?_, ?_⟩
        · exact (hkept other _ (Or.inl hm)).trans hu.2.1
        · exact (hkept other _ (Or.inl hm)).trans hu.2.2
      · refine Or.inr ⟨hr.1, ?_, ?_⟩
        · exact (hkept other _ (Or.inl hm)).trans hr.2.1
        · exact (hkept other _ (Or.inl hm)).trans hr.2.2
  · intro other ho
    obtain ⟨hu, hp⟩ := h.fresh other ho
    have hout : other ∉ links := fun hm => absurd (h.linked other hm).1.1 (Nat.not_lt.mpr ho)
    refine ⟨⟨hu.1, ?_, ?_⟩, hp⟩
    · exact (hkept other _ (Or.inl hout)).trans hu.2.1
    · exact (hkept other _ (Or.inl hout)).trans hu.2.2
  · change Expects _ _ s.acceptor
    rw [heq]
    trivial

theorem appends (h : Owned s links) {node head : Nat} (heq : s.acceptor = .locking node)
    (hhead : s.tcpNodes = some head) {fd connection : Nat} {left : List UInt8} :
    Owned { s with
      next := Function.update s.next (lastNode s.next s.nodes head) (some node)
      acceptor := .replying fd connection left .keep } (links ++ [node]) := by
  obtain ⟨hactive, hnext, hpresent⟩ := h.of_threaded heq rfl rfl
  have hout : node ∉ links := fun hm => (h.linked node hm).2.2 (by rw [heq]; rfl)
  have hpath := h.path
  rw [hhead] at hpath
  rcases List.eq_nil_or_concat links with rfl | ⟨init, last, rfl⟩
  · cases hpath
  · simp only [List.concat_eq_append] at *
    have hfits := h.fits
    simp only [List.length_append, List.length_singleton] at hfits
    have hlast : lastNode s.next s.nodes head = last := lastNode_spec s.next hpath (by omega)
    have hinit : last ∉ init :=
      fun hm => (List.nodup_append.mp h.nodup).2.2 last hm last (by simp) rfl
    have hne : ∀ other ∈ init ++ [last], other ≠ node := by
      rintro other ho rfl
      exact hout ho
    rw [hlast]
    refine ⟨?_, ?_, ?_, ?_, ?_, h.fresh, h.permits, ?_, h.mutexWorker, trivial⟩
    · change Chain.Path _ s.tcpNodes _ none
      rw [hhead]
      exact Chain.path_link s.next hpath hinit hout hnext
    · rw [List.nodup_append]
      refine ⟨h.nodup, List.nodup_singleton _, ?_⟩
      intro other ho x hx
      rw [List.mem_singleton.mp hx]
      exact hne other ho
    · intro other ho
      rcases List.mem_append.mp ho with hm | hm
      · obtain ⟨ha, hwo, -⟩ := h.linked other hm
        exact ⟨ha, hwo, by simp [Acceptor.owned, After.node]⟩
      · obtain rfl := List.mem_singleton.mp hm
        exact ⟨hactive, hpresent, by simp [Acceptor.owned, After.node]⟩
    · intro other ho
      cases ho
    · intro other ho _
      rw [List.mem_append, List.mem_singleton, not_or] at ho
      refine h.retired other ho.1 ?_
      rw [heq]
      exact fun he => ho.2 (Option.some.inj he).symm
    · have hm := h.mutexAcceptor
      rw [heq] at hm
      exact hm

theorem starts (h : Owned s links) {node : Nat} (heq : s.acceptor = .startingSdr node) :
    Owned (s.deviceStarted node) [node] := by
  obtain ⟨hactive, hnext, hpresent⟩ := h.of_threaded heq rfl rfl
  have hexpects := h.expects
  rw [heq] at hexpects
  obtain rfl : links = [] := hexpects
  have hmutex : s.mutex = some .acceptor := h.mutexAcceptor.mpr (by rw [heq]; rfl)
  refine ⟨⟨rfl, hnext⟩, List.nodup_singleton _, ?_, ?_, ?_, h.fresh, h.permits, ?_, ?_, trivial⟩
  · intro other ho
    obtain rfl := List.mem_singleton.mp ho
    exact ⟨hactive, hpresent, by simp [deviceStarted, respondSuccess, Acceptor.owned, After.node]⟩
  · intro other ho
    cases ho
  · intro other ho _
    refine h.retired other (by simp) ?_
    rw [heq]
    exact fun he => ho (by simp [Option.some.inj he])
  · simp [deviceStarted, respondSuccess, Acceptor.holds, After.holds]
  · intro other
    have hm := h.mutexWorker other
    rw [hmutex] at hm
    change none = _ ↔ (s.worker other).holds = true
    rw [← hm]
    simp

theorem frees (h : Owned s links) {node : Nat} (heq : s.acceptor = .cleaning node)
    (hended : s.worker node = .ended) :
    Owned { s with
      joined := Function.update s.joined node (s.joined node + 1)
      freed := Function.update s.freed node (s.freed node + 1)
      acceptor := .looping } links := by
  obtain ⟨hactive, -, -⟩ := h.current node (by rw [heq]; rfl)
  refine ⟨h.path, h.nodup, ?_, ?_, ?_, ?_, h.permits, ?_, h.mutexWorker, trivial⟩
  · intro other ho
    obtain ⟨ha, hw, hne⟩ := h.linked other ho
    rw [heq] at hne
    have hother : other ≠ node := fun he => hne (by rw [he]; rfl)
    exact ⟨cleaned_active hother ha, hw, by simp [Acceptor.owned]⟩
  · intro other ho
    cases ho
  · intro other ho _
    apply cleaned_retired hactive hended
    intro hother
    apply h.retired other ho
    rw [heq]
    exact fun he => hother (Option.some.inj he).symm
  · exact cleaned_fresh h hactive
  · have hm := h.mutexAcceptor
    rw [heq] at hm
    exact hm

theorem forgets (h : Owned s links) {a : Acceptor} (heq : s.acceptor = a)
    (hthreaded : a.threaded = false) (hholds : a.holds = false) :
    Owned { s with acceptor := .looping } links := by
  refine ⟨h.path, h.nodup, ?_, ?_, ?_, h.fresh, h.permits, ?_, h.mutexWorker, trivial⟩
  · intro other ho
    obtain ⟨ha, hw, -⟩ := h.linked other ho
    exact ⟨ha, hw, by simp [Acceptor.owned]⟩
  · intro other ho
    cases ho
  · intro other ho _
    by_cases hown : s.acceptor.owned = some other
    · obtain ⟨hactive, -, hw⟩ := h.current other hown
      exact Or.inl ⟨hw.mpr (by rw [heq]; exact hthreaded), hactive.2⟩
    · exact h.retired other ho hown
  · have hm := h.mutexAcceptor
    rw [heq, hholds] at hm
    exact hm

theorem unlinksHead (h : Owned s links) {node : Nat} (heq : s.acceptor = .stopping)
    (hhead : s.tcpNodes = some node) (hended : s.worker node = .ended) :
    Owned { s with
      joined := Function.update s.joined node (s.joined node + 1)
      freed := Function.update s.freed node (s.freed node + 1)
      tcpNodes := s.next node } links.tail := by
  have hpath := h.path
  rw [hhead] at hpath
  have hnone : s.acceptor.owned = none := by rw [heq]; rfl
  cases links with
  | nil => cases hpath
  | cons first rest =>
    obtain ⟨hfirst, hrest⟩ := hpath
    obtain rfl : node = first := Option.some.inj hfirst
    obtain ⟨hnode, hnodup⟩ := List.nodup_cons.mp h.nodup
    obtain ⟨hactive, -, -⟩ := h.linked node List.mem_cons_self
    refine ⟨hrest, hnodup, ?_, ?_, ?_, ?_, h.permits, h.mutexAcceptor, h.mutexWorker, ?_⟩
    · intro other ho
      obtain ⟨ha, hw, hne⟩ := h.linked other (List.mem_cons_of_mem _ ho)
      have hother : other ≠ node := fun he => hnode (he ▸ ho)
      exact ⟨cleaned_active hother ha, hw, hne⟩
    · intro other ho
      change s.acceptor.owned = some other at ho
      rw [hnone] at ho
      cases ho
    · intro other ho hne
      apply cleaned_retired hactive hended
      intro hother
      have hout : other ∉ node :: rest := fun hm => (List.mem_cons.mp hm).elim hother ho
      exact h.retired other hout hne
    · exact cleaned_fresh h hactive
    · change Expects _ _ s.acceptor
      rw [heq]
      trivial

end Owned
end Server
end SdrServer
