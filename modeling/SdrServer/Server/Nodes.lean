import SdrServer.Foundation.Chain
import SdrServer.Server.Model
import Mathlib.Data.List.Nodup

namespace SdrServer
namespace Server

variable {s t : Server} {c : ServerConfig} {links : List Nat}

theorem finalCleanup_ended {node : Nat} (h : s.worker node = .ended) :
    s.tcpNodeFinalCleanup node = some { s with
      joined := Function.update s.joined node (s.joined node + 1)
      freed := Function.update s.freed node (s.freed node + 1) } := if_pos h

def removed (running : Nat → Bool) (nodes : List Nat) (count : Nat → Nat) (node : Nat) : Nat :=
  if node ∈ nodes ∧ running node = false then count node + 1 else count node

structure Pruned (s : Server) (nodes links : List Nat) (head : Option Nat) (next : Nat → Option Nat) :
    Prop where
  path : Chain.Path next head links none
  frame : ∀ node, node ∉ nodes → next node = s.next node

theorem removed_cons_stopped {running : Nat → Bool} {node : Nat} {rest : List Nat}
    (hn : node ∉ rest) (hstopped : running node = false) (count : Nat → Nat) :
    removed running rest (Function.update count node (count node + 1)) =
      removed running (node :: rest) count := by
  funext other
  by_cases he : other = node
  · subst he
    simp [removed, hn, hstopped]
  · simp [removed, he]

theorem removed_cons_running {running : Nat → Bool} {node : Nat} {rest : List Nat}
    (hrunning : running node = true) (count : Nat → Nat) :
    removed running (node :: rest) count = removed running rest count := by
  funext other
  by_cases he : other = node
  · subst he
    simp [removed, hrunning]
  · simp [removed, he]

theorem path_unlinkAfter {kept rest : List Nat} {node : Nat}
    (hpath : Chain.Path s.next s.tcpNodes (kept ++ node :: rest) none)
    (hnodup : (kept ++ node :: rest).Nodup) :
    ∃ head next, s.unlinkAfter kept.getLast? (s.next node) = { s with tcpNodes := head, next } ∧
      Pruned s kept (kept ++ rest) head next := by
  rcases List.eq_nil_or_concat kept with rfl | ⟨init, p, rfl⟩
  · refine ⟨s.next node, s.next, rfl, hpath.2, fun _ _ => rfl⟩
  · simp only [List.concat_eq_append] at *
    have hdisjoint := List.nodup_append.mp hnodup
    have hinit := List.nodup_append.mp hdisjoint.1
    have hp : p ∉ init := fun hm => hinit.2.2 p hm p (by simp) rfl
    have hr : p ∉ rest := fun hm => hdisjoint.2.2 p (by simp) p (by simp [hm]) rfl
    refine ⟨s.tcpNodes, Function.update s.next p (s.next node), ?_, ?_, ?_⟩
    · simp [unlinkAfter]
    · exact Chain.path_unlink s.next hpath hp hr
    · intro other ho
      have hne : other ≠ p := fun he => ho (by simp [he])
      exact Function.update_of_ne hne _ _

theorem cleanupLoop_spec (kept rest : List Nat) (fuel : Nat)
    (hpath : Chain.Path s.next s.tcpNodes (kept ++ rest) none) (hnodup : (kept ++ rest).Nodup)
    (hended : ∀ node ∈ rest, s.running node = false → s.worker node = .ended)
    (hfuel : rest.length ≤ fuel) :
    ∃ head next, cleanupLoop fuel rest.head? kept.getLast? s = some { s with
        tcpNodes := head
        next
        joined := removed s.running rest s.joined
        freed := removed s.running rest s.freed } ∧
      Pruned s (kept ++ rest) (kept ++ rest.filter fun node => s.running node) head next := by
  induction rest generalizing s kept fuel with
  | nil =>
    refine ⟨s.tcpNodes, s.next, ?_, hpath, fun _ _ => rfl⟩
    have hnone : ∀ count, removed s.running [] count = count := by
      intro count
      funext node
      simp [removed]
    rw [hnone, hnone]
    cases fuel <;> rfl
  | cons node rest ih =>
    obtain ⟨fuel, rfl⟩ := Nat.exists_eq_add_of_le' (show 1 ≤ fuel by
      simp only [List.length_cons] at hfuel
      omega)
    have hnext : s.next node = rest.head? := by
      obtain ⟨mid, -, rfl, hrest⟩ := (Chain.path_append s.next _ _ kept (node :: rest)).mp hpath
      exact Chain.path_head s.next hrest
    have hnode : node ∉ rest := by
      have hcons := (List.nodup_append.mp hnodup).2.1
      exact (List.nodup_cons.mp hcons).1
    have hfuel' : rest.length ≤ fuel := by simpa using hfuel
    rw [List.head?_cons, cleanupLoop]
    by_cases hrunning : s.running node = true
    · have hassoc : kept ++ node :: rest = (kept ++ [node]) ++ rest := by simp
      rw [hassoc] at hpath hnodup
      obtain ⟨head, next, hloop, hpruned⟩ := ih (kept ++ [node]) fuel hpath hnodup
        (fun other ho => hended other (List.mem_cons_of_mem _ ho)) hfuel'
      refine ⟨head, next, ?_, ?_⟩
      · simp only [List.getLast?_append, List.getLast?_singleton, Option.some_or] at hloop
        rw [if_pos hrunning, hnext, hloop, removed_cons_running hrunning s.joined,
          removed_cons_running hrunning s.freed]
      · simpa [List.filter_cons_of_pos, hrunning] using hpruned
    · have hstopped : s.running node = false := by simpa using hrunning
      obtain ⟨head, next, hunlink, hpruned⟩ := path_unlinkAfter hpath hnodup
      have hworker : s.worker node = .ended := hended node List.mem_cons_self hstopped
      have hsub : (kept ++ rest).Nodup :=
        hnodup.sublist (List.Sublist.append_left (List.sublist_cons_self node rest) kept)
      have hrec := ih (s := { s with
          tcpNodes := head
          next
          joined := Function.update s.joined node (s.joined node + 1)
          freed := Function.update s.freed node (s.freed node + 1) }) kept fuel hpruned.path hsub
        (fun other ho => hended other (List.mem_cons_of_mem _ ho)) hfuel'
      obtain ⟨head', next', hloop, hpruned'⟩ := hrec
      refine ⟨head', next', ?_, ?_, ?_⟩
      · simp only [removed_cons_stopped hnode hstopped] at hloop
        rw [if_neg hrunning, hunlink, finalCleanup_ended (by exact hworker), Option.bind_some, hnext]
        exact hloop
      · simpa [List.filter_cons_of_neg, hrunning] using hpruned'.path
      · intro other ho
        simp only [List.mem_append, List.mem_cons, not_or] at ho
        rw [hpruned'.frame other (by simp [ho.1, ho.2.2])]
        exact hpruned.frame other ho.1

theorem cleanup_spec (hpath : Chain.Path s.next s.tcpNodes links none) (hnodup : links.Nodup)
    (hended : ∀ node ∈ links, s.running node = false → s.worker node = .ended)
    (hfuel : links.length ≤ s.nodes) :
    ∃ head next, s.cleanupTerminatedThreads = some { s with
        tcpNodes := head
        next
        joined := removed s.running links s.joined
        freed := removed s.running links s.freed } ∧
      Pruned s links (links.filter fun node => s.running node) head next := by
  have hloop := cleanupLoop_spec (s := s) [] links s.nodes hpath hnodup hended hfuel
  rw [← Chain.path_head s.next hpath] at hloop
  exact hloop

theorem lastNode_spec (next : Nat → Option Nat) {init : List Nat} {head last : Nat} {fuel : Nat}
    (hpath : Chain.Path next (some head) (init ++ [last]) none) (hfuel : init.length ≤ fuel) :
    lastNode next fuel head = last := by
  induction init generalizing head fuel with
  | nil =>
    obtain ⟨hhead, hend⟩ := hpath
    obtain rfl : head = last := Option.some.inj hhead
    change next head = none at hend
    cases fuel with
    | zero => rfl
    | succ fuel => rw [lastNode, hend]
  | cons node init ih =>
    obtain ⟨hhead, hrest⟩ := hpath
    obtain rfl : head = node := Option.some.inj hhead
    obtain ⟨fuel, rfl⟩ := Nat.exists_eq_add_of_le' (show 1 ≤ fuel by
      simp only [List.length_cons] at hfuel
      omega)
    cases hnext : next head with
    | none =>
      rw [hnext] at hrest
      cases init <;> cases hrest.1
    | some following =>
      rw [hnext] at hrest
      rw [lastNode, hnext]
      exact ih hrest (by simpa using hfuel)

theorem someRunning_spec {head : Option Nat} {fuel : Nat}
    (hpath : Chain.Path s.next head links none) (hfuel : links.length ≤ fuel) :
    s.someRunning fuel head = links.any fun node => s.running node := by
  induction links generalizing head fuel with
  | nil =>
    obtain rfl : head = none := hpath
    cases fuel <;> rfl
  | cons node rest ih =>
    obtain ⟨rfl, hrest⟩ := hpath
    obtain ⟨fuel, rfl⟩ := Nat.exists_eq_add_of_le' (show 1 ≤ fuel by
      simp only [List.length_cons] at hfuel
      omega)
    rw [someRunning, List.any_cons]
    split
    · rename_i hrunning
      simp [hrunning]
    · rename_i hstopped
      rw [ih hrest (by simpa using hfuel)]
      simp [hstopped]

end Server
end SdrServer
