import SdrServer.Server.Sockets

namespace SdrServer

def Worker.closes : Worker → Nat
  | .scanning => 1
  | .destroying => 1
  | .joining => 2
  | .ended => 2
  | _ => 0

namespace Acceptor

def plain : Acceptor → Bool
  | .reading _ _ => false
  | .destroying _ => false
  | .joiningDsp _ => false
  | _ => true

theorem plain_ne {a : Acceptor} (h : a.plain = true) :
    (∀ fd conn, a ≠ .reading fd conn) ∧ (∀ node, a ≠ .destroying node) ∧
      ∀ node, a ≠ .joiningDsp node := by
  refine ⟨?_, ?_, ?_⟩
  · rintro fd conn rfl
    cases h
  · rintro node rfl
    cases h
  · rintro node rfl
    cases h

end Acceptor

namespace Server

variable {s t : Server} {c : ServerConfig} {k k' : Sockets} {links : List Nat}

structure Issued (s : Server) (k : Sockets) : Prop where
  latest : ∀ node, s.acceptor.owned = some node → s.connection node + 1 = s.accepted
  reading : ∀ fd conn, s.acceptor = .reading fd conn → conn + 1 = s.accepted
  workers : ∀ node < s.nodes, (s.worker node).closes ≤ k.issued (s.connection node)
  forgotten : ∀ node < s.nodes, s.worker node = .absent → s.acceptor.owned ≠ some node →
    2 ≤ k.issued (s.connection node)
  destroying : ∀ node, s.acceptor = .destroying node → 1 ≤ k.issued (s.connection node)
  joining : ∀ node, s.acceptor = .joiningDsp node → 2 ≤ k.issued (s.connection node)

theorem issued_start : Issued start Sockets.start := by
  constructor <;> simp [start, Acceptor.owned]

theorem issued_close (k : Sockets) (fd connection : Nat) :
    (k.close fd connection).issued connection = k.issued connection + 1 ∧
      ∀ conn, k.issued conn ≤ (k.close fd connection).issued conn := by
  refine ⟨Function.update_self .., ?_⟩
  intro conn
  change k.issued conn ≤ Function.update k.issued connection (k.issued connection + 1) conn
  by_cases he : conn = connection
  · rw [he, Function.update_self]
    exact Nat.le_succ _
  · exact Nat.le_of_eq (Function.update_of_ne he _ _).symm

structure SameNodes (s t : Server) : Prop where
  nodes : t.nodes = s.nodes
  connection : t.connection = s.connection
  accepted : t.accepted = s.accepted

theorem Issued.moves (h : Issued s k) (hsame : SameNodes s t)
    (hissued : ∀ conn, k.issued conn ≤ k'.issued conn)
    (hworker : ∀ node < s.nodes, (t.worker node).closes ≤ k'.issued (s.connection node))
    (habsent : ∀ node, t.worker node = .absent → s.worker node = .absent)
    (howned : ∀ node, t.acceptor.owned = some node → s.acceptor.owned = some node)
    (hlost : ∀ node, s.acceptor.owned = some node → t.acceptor.owned = some node ∨
      t.worker node ≠ .absent ∨ 2 ≤ k'.issued (s.connection node))
    (hreading : ∀ fd conn, t.acceptor = .reading fd conn → conn + 1 = s.accepted)
    (hdestroying : ∀ node, t.acceptor = .destroying node → 1 ≤ k'.issued (s.connection node))
    (hjoining : ∀ node, t.acceptor = .joiningDsp node → 2 ≤ k'.issued (s.connection node)) :
    Issued t k' := by
  obtain ⟨hnodes, hconnection, haccepted⟩ := hsame
  refine ⟨?_, ?_, ?_, ?_, ?_, ?_⟩
  · intro node hn
    rw [hconnection, haccepted]
    exact h.latest node (howned node hn)
  · rw [haccepted]
    exact hreading
  · rw [hnodes, hconnection]
    exact hworker
  · intro node hn hw hne
    rw [hnodes] at hn
    rw [hconnection]
    by_cases hbefore : s.acceptor.owned = some node
    · rcases hlost node hbefore with hkept | hpresent | hclosed
      · exact absurd hkept hne
      · exact absurd hw hpresent
      · exact hclosed
    · exact Nat.le_trans (h.forgotten node hn (habsent node hw) hbefore) (hissued _)
  · rw [hconnection]
    exact hdestroying
  · rw [hconnection]
    exact hjoining

theorem Issued.stays (h : Issued s k) (hsame : SameNodes s t) (hacceptor : t.acceptor = s.acceptor)
    (hissued : ∀ conn, k.issued conn ≤ k'.issued conn)
    (hworker : ∀ node < s.nodes, (t.worker node).closes ≤ k'.issued (s.connection node))
    (habsent : ∀ node, t.worker node = .absent → s.worker node = .absent) : Issued t k' := by
  refine h.moves hsame hissued hworker habsent ?_ ?_ ?_ ?_ ?_
  · rw [hacceptor]
    exact fun _ hn => hn
  · rw [hacceptor]
    exact fun _ hn => Or.inl hn
  · rw [hacceptor]
    exact h.reading
  · rw [hacceptor]
    exact fun node heq => Nat.le_trans (h.destroying node heq) (hissued _)
  · rw [hacceptor]
    exact fun node heq => Nat.le_trans (h.joining node heq) (hissued _)

theorem Issued.worker (h : Issued s k) (ho : Owned s links) {node : Nat} {e : WorkerEvent}
    (ht : WorkerMove s node e t) (hk : k.workerStep s node e = some k') : Issued t k' := by
  have hother : ∀ (new : Worker) other, other ≠ node →
      Function.update s.worker node new other = s.worker other :=
    fun new other hne => Function.update_of_ne hne _ _
  have hpresent : ∀ new : Worker, new ≠ .absent → ∀ other,
      Function.update s.worker node new other = .absent → s.worker other = .absent := by
    intro new hnew other ho
    by_cases he : other = node
    · rw [he, Function.update_self] at ho
      exact absurd ho hnew
    · rwa [hother new other he] at ho
  have hcloses : ∀ (new : Worker) (k' : Sockets), (∀ conn, k.issued conn ≤ k'.issued conn) →
      new.closes ≤ k'.issued (s.connection node) → ∀ other < s.nodes,
        (Function.update s.worker node new other).closes ≤ k'.issued (s.connection other) := by
    intro new k' hissued hnew other hn
    by_cases he : other = node
    · rw [he, Function.update_self]
      exact hnew
    · rw [hother new other he]
      exact Nat.le_trans (h.workers other hn) (hissued _)
  have hbefore : ∀ {old : Worker}, s.worker node = old → old ≠ .absent →
      old.closes ≤ k.issued (s.connection node) := by
    rintro old rfl hne
    exact h.workers node (ho.allocated hne)
  have hkeep : ∀ conn, k.issued conn ≤ k.issued conn := fun _ => Nat.le_refl _
  cases ht with
  | leave heq =>
    obtain rfl := Option.some.inj hk
    exact h.stays ⟨rfl, rfl, rfl⟩ rfl hkeep (hcloses _ k hkeep (Nat.zero_le _)) (hpresent _ (by simp))
  | lock heq =>
    obtain rfl := Option.some.inj hk
    exact h.stays ⟨rfl, rfl, rfl⟩ rfl hkeep (hcloses _ k hkeep (Nat.zero_le _)) (hpresent _ (by simp))
  | close heq =>
    obtain rfl := Option.some.inj hk
    obtain ⟨hself, hmono⟩ := issued_close k (s.config node).clientSocket (s.connection node)
    refine h.stays ⟨rfl, rfl, rfl⟩ rfl hmono (hcloses _ _ hmono ?_) (hpresent _ (by simp))
    change 1 ≤ (k.close (s.config node).clientSocket (s.connection node)).issued (s.connection node)
    rw [hself]
    exact Nat.le_add_left 1 _
  | scan heq =>
    obtain rfl := Option.some.inj hk
    have hle : 1 ≤ k.issued (s.connection node) := hbefore heq (by simp)
    exact h.stays ⟨rfl, rfl, rfl⟩ rfl hkeep (hcloses _ k hkeep hle) (hpresent _ (by simp))
  | scanLast heq =>
    obtain rfl := Option.some.inj hk
    have hle : 1 ≤ k.issued (s.connection node) := hbefore heq (by simp)
    exact h.stays ⟨rfl, rfl, rfl⟩ rfl hkeep (hcloses _ k hkeep hle) (hpresent _ (by simp))
  | destroyNode heq =>
    obtain rfl := Option.some.inj hk
    obtain ⟨hself, hmono⟩ := issued_close k (s.config node).clientSocket (s.connection node)
    refine h.stays ⟨rfl, rfl, rfl⟩ rfl hmono (hcloses _ _ hmono ?_) (hpresent _ (by simp))
    change 2 ≤ (k.close (s.config node).clientSocket (s.connection node)).issued (s.connection node)
    rw [hself]
    exact Nat.succ_le_succ (hbefore heq (by simp))
  | joinDsp heq =>
    obtain rfl := Option.some.inj hk
    have hle : 2 ≤ k.issued (s.connection node) := hbefore heq (by simp)
    exact h.stays ⟨rfl, rfl, rfl⟩ rfl hkeep (hcloses _ k hkeep hle) (hpresent _ (by simp))

structure SameCloses (k k' : Sockets) : Prop where
  owner : k'.owner = k.owner
  closes : k'.closes = k.closes
  issued : k'.issued = k.issued
  hits : k'.hits = k.hits

theorem sameCloses_refl (k : Sockets) : SameCloses k k := ⟨rfl, rfl, rfl, rfl⟩

theorem sameCloses_write {fd : Nat} {bytes : List OutByte} (hk : k.write fd bytes = some k') :
    SameCloses k k' := by
  unfold Sockets.write at hk
  split at hk
  · cases hk
  · split at hk
    · cases hk
    · obtain rfl := Option.some.inj hk
      exact ⟨rfl, rfl, rfl, rfl⟩

theorem sameCloses_writeFails {fd : Nat} (hk : k.writeFails fd = some k') : SameCloses k k' := by
  unfold Sockets.writeFails at hk
  split at hk
  · obtain rfl := Option.some.inj hk
    exact sameCloses_refl k
  · split at hk
    · obtain rfl := Option.some.inj hk
      exact sameCloses_refl k
    · cases hk

theorem sameCloses_shutdown (k : Sockets) (fd : Nat) : SameCloses k (k.shutdown fd) := by
  unfold Sockets.shutdown
  split <;> exact ⟨rfl, rfl, rfl, rfl⟩

theorem Issued.onward (h : Issued s k) (hsame : SameNodes s t) (hworker : t.worker = s.worker)
    (hissued : ∀ conn, k.issued conn ≤ k'.issued conn)
    (howned : t.acceptor.owned = s.acceptor.owned)
    (hreading : ∀ fd conn, t.acceptor ≠ .reading fd conn)
    (hdestroying : ∀ node, t.acceptor = .destroying node → 1 ≤ k'.issued (s.connection node))
    (hjoining : ∀ node, t.acceptor = .joiningDsp node → 2 ≤ k'.issued (s.connection node)) :
    Issued t k' := by
  refine h.moves hsame hissued ?_ ?_ ?_ ?_ ?_ hdestroying hjoining
  · rw [hworker]
    exact fun node hn => Nat.le_trans (h.workers node hn) (hissued _)
  · rw [hworker]
    exact fun _ hw => hw
  · rw [howned]
    exact fun _ hn => hn
  · rw [howned]
    exact fun _ hn => Or.inl hn
  · exact fun fd conn heq => absurd heq (hreading fd conn)

theorem Issued.goes (h : Issued s k) (hsame : SameNodes s t) (hworker : t.worker = s.worker)
    (hissued : ∀ conn, k.issued conn ≤ k'.issued conn)
    (howned : t.acceptor.owned = s.acceptor.owned) (hplain : t.acceptor.plain = true) :
    Issued t k' := by
  obtain ⟨hreading, hdestroying, hjoining⟩ := Acceptor.plain_ne hplain
  refine h.onward hsame hworker hissued howned hreading ?_ ?_
  · exact fun node heq => absurd heq (hdestroying node)
  · exact fun node heq => absurd heq (hjoining node)

theorem Issued.lets (h : Issued s k) (hsame : SameNodes s t) (hworker : t.worker = s.worker)
    (hissued : ∀ conn, k.issued conn ≤ k'.issued conn) {node : Nat}
    (hbefore : s.acceptor.owned = some node) (hafter : t.acceptor.owned = none)
    (hdone : s.worker node ≠ .absent ∨ 2 ≤ k'.issued (s.connection node))
    (hplain : t.acceptor.plain = true) : Issued t k' := by
  obtain ⟨hreading, hdestroying, hjoining⟩ := Acceptor.plain_ne hplain
  refine h.moves hsame hissued ?_ ?_ ?_ ?_ ?_ ?_ ?_
  · rw [hworker]
    exact fun other hn => Nat.le_trans (h.workers other hn) (hissued _)
  · rw [hworker]
    exact fun _ hw => hw
  · intro other hn
    rw [hafter] at hn
    cases hn
  · intro other hn
    obtain rfl := Option.some.inj (hbefore.symm.trans hn)
    rw [hworker]
    exact Or.inr hdone
  · exact fun fd conn heq => absurd heq (hreading fd conn)
  · exact fun other heq => absurd heq (hdestroying other)
  · exact fun other heq => absurd heq (hjoining other)

theorem Issued.accepts (h : Issued s k) (heq : s.acceptor = .accepting) {fd : Nat}
    (hk : k.accept fd s.accepted = some k') :
    Issued { s with acceptor := .reading fd s.accepted, accepted := s.accepted + 1 } k' := by
  unfold Sockets.accept at hk
  split at hk
  · obtain rfl := Option.some.inj hk
    have hnone : ∀ node, s.acceptor.owned ≠ some node := by
      simp [heq, Acceptor.owned]
    refine ⟨?_, ?_, h.workers, ?_, ?_, ?_⟩
    · intro node hn
      cases hn
    · intro fd' conn hreading
      injection hreading with _ hconn
      rw [← hconn]
    · exact fun node hn hw _ => h.forgotten node hn hw (hnone node)
    · intro node hn
      cases hn
    · intro node hn
      cases hn
  · cases hk

theorem Issued.serves (h : Issued s k) (ho : Owned s links) {fd conn : Nat}
    (heq : s.acceptor = .reading fd conn) (config : ClientConfig) :
    Issued (s.newNode conn config) k := by
  have hnone : ∀ node, s.acceptor.owned ≠ some node := by
    simp [heq, Acceptor.owned]
  have hself : (s.newNode conn config).connection s.nodes = conn := Function.update_self ..
  have hother : ∀ node < s.nodes, (s.newNode conn config).connection node = s.connection node :=
    fun node hn => Function.update_of_ne (Nat.ne_of_lt hn) _ _
  refine ⟨?_, ?_, ?_, ?_, ?_, ?_⟩
  · intro node hn
    obtain rfl : s.nodes = node := Option.some.inj hn
    rw [hself]
    exact h.reading fd conn heq
  · intro fd' conn' hn
    cases hn
  · intro node hn
    rcases Nat.lt_succ_iff_lt_or_eq.mp hn with hlt | rfl
    · rw [hother node hlt]
      exact h.workers node hlt
    · have habsent : (s.newNode conn config).worker s.nodes = .absent :=
        (ho.fresh s.nodes (Nat.le_refl _)).1.1
      rw [habsent]
      exact Nat.zero_le _
  · intro node hn hw hne
    rcases Nat.lt_succ_iff_lt_or_eq.mp hn with hlt | rfl
    · rw [hother node hlt]
      exact h.forgotten node hlt hw (hnone node)
    · exact absurd rfl hne
  · intro node hn
    cases hn
  · intro node hn
    cases hn

theorem Issued.entered (h : Issued s k) (ho : Owned s links) {node : Nat} {links' : List Nat}
    (heq : s.acceptor = .locking node) (ht : Entered s links node links' t) : Issued t k := by
  have howned : s.acceptor.owned = some node := by
    rw [heq]
    rfl
  have hkeep : ∀ conn, k.issued conn ≤ k.issued conn := fun _ => Nat.le_refl _
  cases ht with
  | appends =>
    obtain ⟨-, -, hpresent⟩ := ho.of_threaded heq rfl rfl
    exact h.lets ⟨rfl, rfl, rfl⟩ rfl hkeep howned rfl (Or.inl hpresent) rfl
  | _ =>
    exact h.goes ⟨rfl, rfl, rfl⟩ rfl hkeep (by rw [howned]; rfl) rfl

theorem Issued.creates (h : Issued s k) {node : Nat} (heq : s.acceptor = .creatingThread node) :
    Issued { s.setWorker node .reading with acceptor := .locking node } k := by
  refine h.moves ⟨rfl, rfl, rfl⟩ (fun _ => Nat.le_refl _) ?_ ?_ ?_ ?_ ?_ ?_ ?_
  · intro other hn
    change (Function.update s.worker node .reading other).closes ≤ _
    by_cases he : other = node
    · rw [he, Function.update_self]
      exact Nat.zero_le _
    · rw [Function.update_of_ne he]
      exact h.workers other hn
  · intro other hw
    change Function.update s.worker node .reading other = .absent at hw
    by_cases he : other = node
    · rw [he, Function.update_self] at hw
      cases hw
    · rwa [Function.update_of_ne he] at hw
  · rw [heq]
    exact fun _ hn => hn
  · rw [heq]
    exact fun _ hn => Or.inl hn
  · intro fd conn hn
    cases hn
  · intro other hn
    cases hn
  · intro other hn
    cases hn

theorem Issued.closed (h : Issued s k) {fd : Nat} {after : After} (heq : s.acceptor = .closing fd after) :
    Issued { s with acceptor := afterClose after } (k.close fd (s.accepted - 1)) := by
  obtain ⟨hself, hmono⟩ := issued_close k fd (s.accepted - 1)
  refine h.onward ⟨rfl, rfl, rfl⟩ rfl hmono ?_ ?_ ?_ ?_
  · rw [heq]
    cases after <;> rfl
  · cases after <;> simp [afterClose]
  · intro node hdestroying
    have howned : s.acceptor.owned = some node := by
      rw [heq]
      cases after with
      | destroy other =>
        obtain rfl := Acceptor.destroying.inj hdestroying
        rfl
      | _ => cases hdestroying
    have hlatest := h.latest node howned
    have hconn : s.connection node = s.accepted - 1 := by omega
    rw [hconn, hself]
    exact Nat.le_add_left 1 _
  · cases after <;> simp [afterClose]

theorem Issued.acceptor (h : Issued s k) (ho : Owned s links) {e : AcceptorEvent}
    (ht : AcceptorMove c s e t) (hk : k.acceptorStep s e = some k') : Issued t k' := by
  have hkeep : ∀ conn, k.issued conn ≤ k.issued conn := fun _ => Nat.le_refl _
  have hplain : ∀ {t : Server} {k' : Sockets}, SameNodes s t → t.worker = s.worker →
      SameCloses k k' → t.acceptor.owned = s.acceptor.owned → t.acceptor.plain = true →
      Issued t k' := by
    intro t k' hsame hworker hcloses howned hplain
    refine h.goes hsame hworker ?_ howned hplain
    rw [hcloses.issued]
    exact hkeep
  have hrefl := sameCloses_refl k
  cases ht with
  | checkRunning heq =>
    obtain rfl := Option.some.inj hk
    cases s.isRunning <;>
      exact hplain ⟨rfl, rfl, rfl⟩ rfl hrefl (by rw [heq]; rfl) rfl
  | accept heq => exact h.accepts heq hk
  | receive heq ht =>
    obtain rfl := Option.some.inj hk
    cases ht with
    | @serves counter config =>
      have hcounted : Issued { s with clientCounter := counter } k := { h with }
      have howned : Owned { s with clientCounter := counter } links := { ho with }
      exact hcounted.serves howned heq config
    | _ =>
      exact hplain ⟨rfl, rfl, rfl⟩ rfl hrefl (by rw [heq]; rfl) rfl
  | createThread heq =>
    obtain rfl := Option.some.inj hk
    exact h.creates heq
  | lock heq hfree ht =>
    obtain rfl := Option.some.inj hk
    obtain ⟨links', -, hentered⟩ := owned_enterList ho heq hfree ht
    exact h.entered ho heq hentered
  | @startSdr node heq =>
    obtain rfl := Option.some.inj hk
    have howned : s.acceptor.owned = some node := by
      rw [heq]
      rfl
    obtain ⟨-, -, hpresent⟩ := ho.of_threaded heq rfl rfl
    exact h.lets ⟨rfl, rfl, rfl⟩ rfl hkeep howned rfl (Or.inl hpresent) rfl
  | reply heq =>
    simp only [Sockets.acceptorStep, heq] at hk
    exact hplain ⟨rfl, rfl, rfl⟩ rfl (sameCloses_write hk) (by rw [heq]; rfl)
      rfl
  | @replyFails fd conn left after heq =>
    simp only [Sockets.acceptorStep, heq] at hk
    have hcloses := sameCloses_writeFails hk
    cases after <;>
      exact hplain ⟨rfl, rfl, rfl⟩ rfl hcloses (by rw [heq]; rfl) rfl
  | @replied fd conn after heq =>
    simp only [Sockets.acceptorStep, heq] at hk
    obtain rfl := Option.some.inj hk
    cases after <;>
      exact hplain ⟨rfl, rfl, rfl⟩ rfl ⟨rfl, rfl, rfl, rfl⟩ (by rw [heq]; rfl)
        rfl
  | close heq =>
    simp only [Sockets.acceptorStep, heq] at hk
    obtain rfl := Option.some.inj hk
    exact h.closed heq
  | @closeNode node heq =>
    simp only [Sockets.acceptorStep, heq] at hk
    obtain rfl := Option.some.inj hk
    obtain ⟨-, hmono⟩ := issued_close k (s.config node).clientSocket (s.connection node)
    exact h.goes ⟨rfl, rfl, rfl⟩ rfl hmono (by rw [heq]; rfl) rfl
  | @cleanup node heq hended =>
    obtain rfl := Option.some.inj hk
    exact h.lets ⟨rfl, rfl, rfl⟩ rfl hkeep (by rw [heq]; rfl) rfl (Or.inl (by simp [hended])) rfl
  | @destroyNode node heq =>
    simp only [Sockets.acceptorStep, heq] at hk
    obtain rfl := Option.some.inj hk
    obtain ⟨hself, hmono⟩ := issued_close k (s.config node).clientSocket (s.connection node)
    refine h.onward ⟨rfl, rfl, rfl⟩ rfl hmono (by rw [heq]; rfl) (by simp) (by simp) ?_
    intro other hjoining
    obtain rfl := Acceptor.joiningDsp.inj hjoining
    change 2 ≤ (k.close (s.config node).clientSocket (s.connection node)).issued (s.connection node)
    rw [hself]
    exact Nat.succ_le_succ (h.destroying node heq)
  | @destroyEmpty node heq =>
    simp only [Sockets.acceptorStep, heq] at hk
    obtain rfl := Option.some.inj hk
    obtain ⟨hself, hmono⟩ := issued_close k (s.config node).clientSocket (s.connection node)
    refine h.lets ⟨rfl, rfl, rfl⟩ rfl hmono (by rw [heq]; rfl) rfl (Or.inr ?_) rfl
    change 2 ≤ (k.close (s.config node).clientSocket (s.connection node)).issued (s.connection node)
    rw [hself]
    exact Nat.succ_le_succ (h.destroying node heq)
  | @joinDsp node heq =>
    obtain rfl := Option.some.inj hk
    exact h.lets ⟨rfl, rfl, rfl⟩ rfl hkeep (by rw [heq]; rfl) rfl (Or.inr (h.joining node heq)) rfl
  | stopRunning heq hhead =>
    simp only [Sockets.acceptorStep, hhead] at hk
    obtain rfl := Option.some.inj hk
    exact hplain ⟨rfl, rfl, rfl⟩ rfl (sameCloses_shutdown k _) (by rw [heq]; rfl)
      rfl
  | stopStopped heq hhead =>
    simp only [Sockets.acceptorStep, hhead] at hk
    obtain rfl := Option.some.inj hk
    exact hplain ⟨rfl, rfl, rfl⟩ rfl (sameCloses_shutdown k _) rfl (by simp [heq, Acceptor.plain])
  | stopLast heq hhead | stopWaits heq hhead =>
    simp only [Sockets.acceptorStep, hhead] at hk
    obtain rfl := Option.some.inj hk
    exact hplain ⟨rfl, rfl, rfl⟩ rfl hrefl (by rw [heq]; rfl) rfl
  | acceptFails heq | startDsp heq | startDspFails heq | createThreadFails heq | wakeStopped heq
  | joinShutdown heq | startSdrFails heq | unlock heq | lockStop heq | wakeTerminated heq | wakeSdr heq
  | joinSdr heq =>
    obtain rfl := Option.some.inj hk
    exact hplain ⟨rfl, rfl, rfl⟩ rfl hrefl (by rw [heq]; rfl) rfl

theorem Issued.dsp (h : Issued s k) {node : Nat} {e : DspThreadEvent} (ht : s.dspStep node e = some t)
    (hk : k.dspStep s node e = some k') : Issued t k' := by
  have hissued : ∀ conn, k.issued conn ≤ k'.issued conn := by
    cases e with
    | write n =>
      simp only [Sockets.dspStep] at hk
      split at hk
      · rw [(sameCloses_write hk).issued]
        exact fun _ => Nat.le_refl _
      · obtain rfl := Option.some.inj hk
        exact fun _ => Nat.le_refl _
    | writeFails =>
      simp only [Sockets.dspStep] at hk
      split at hk
      · rw [(sameCloses_writeFails hk).issued]
        exact fun _ => Nat.le_refl _
      · obtain rfl := Option.some.inj hk
        exact fun _ => Nat.le_refl _
    | close =>
      obtain rfl := Option.some.inj hk
      exact (issued_close k _ _).2
    | _ =>
      obtain rfl := Option.some.inj hk
      exact fun _ => Nat.le_refl _
  obtain ⟨dsp, queue, rfl⟩ := dsp_frame ht
  exact h.stays ⟨rfl, rfl, rfl⟩ rfl hissued
    (fun node hn => Nat.le_trans (h.workers node hn) (hissued _)) fun _ hw => hw

theorem Issued.step {e : Event} (h : Issued s k) (ho : Owned s links) (ht : s.step c e = some t)
    (hk : k.step s e = some k') : Issued t k' := by
  cases e with
  | acceptor event => exact h.acceptor ho (acceptorStep_move ht) hk
  | worker node event => exact h.worker ho (workerStep_move ht) hk
  | dsp node event => exact h.dsp ht hk
  | stopTcpServer =>
    obtain rfl := Option.some.inj ht
    obtain rfl := Option.some.inj hk
    exact { h with }
  | sdrCallback =>
    obtain ⟨queue, rfl⟩ := callback_frame ht
    obtain rfl := Option.some.inj hk
    exact { h with }
  | shutdown event =>
    obtain rfl := Option.some.inj hk
    cases shutdownStep_move ht <;> exact { h with }

end Server
end SdrServer
