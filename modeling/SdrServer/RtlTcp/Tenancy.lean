import SdrServer.RtlTcp.Slots

namespace SdrServer
namespace RtlTcp

-- neither has its command thread ended nor has a send to it failed
def Tenant (c : Client) : Prop := c.thread ≠ .ended ∧ c.sendFailed = false

structure Kept (s : Slots) : Prop where
  holds : ∀ (k : Nat) c, s.clients[k]? = some c → Tenant c →
    s.sock c.slot = some c.sock ∧ s.clientFds c.slot = some c.sock
  alone : ∀ (j k : Nat) c d, s.clients[j]? = some c → s.clients[k]? = some d → j < k → Tenant c →
    d.slot ≠ c.slot
  served : ∀ b, s.broadcast = some b → b.i = maxClients →
    ∀ (k : Nat) c, s.clients[k]? = some c → Tenant c → c.sock ∈ b.sentTo

-- the slot that an ending command thread clears is empty or still its client's
def Own (s : Slots) : SlotEvent → Prop
  | .exitThread k => ∀ c, s.clients[k]? = some c → s.sock c.slot = none ∨ s.sock c.slot = some c.sock
  | _ => True

structure Roster (main : MainPc) (clients : List Client) : Prop where
  distinct : ∀ (j k : Nat) c d, clients[j]? = some c → clients[k]? = some d → j ≠ k →
    c.thread ≠ .ended → d.thread ≠ .ended → c.sock ≠ d.sock
  fresh : ∀ csock, main = .accepted csock →
    ∀ (k : Nat) c, clients[k]? = some c → c.thread ≠ .ended → c.sock ≠ csock
  range : ∀ (k : Nat) c, clients[k]? = some c → c.slot < maxClients
  alone : ∀ (j k : Nat) c d, clients[j]? = some c → clients[k]? = some d → j < k → Tenant c →
    d.slot ≠ c.slot
  placed : ∀ k, main = .placed k → ∃ c, clients[k]? = some c ∧ c.thread = .notCreated

structure Tenancy (s : Slots) : Prop extends Roster s.main s.clients where
  agree : s.clientFds = s.sock
  held : ∀ i sock, s.sock i = some sock →
    ∃ (k : Nat) (c : Client), s.clients[k]? = some c ∧ Tenant c ∧ c.slot = i ∧ c.sock = sock
  keeps : ∀ (k : Nat) c, s.clients[k]? = some c → Tenant c → s.sock c.slot = some c.sock
  served : ∀ b, s.broadcast = some b →
    ∀ (k : Nat) c, s.clients[k]? = some c → Tenant c → c.slot < b.i → c.sock ∈ b.sentTo

theorem Tenancy.kept {s : Slots} (h : Tenancy s) : Kept s where
  holds := by
    intro k c hk hc
    have hsock := h.keeps k c hk hc
    exact ⟨hsock, h.agree ▸ hsock⟩
  alone := h.alone
  served := by
    intro b hb hi k c hk hc
    exact h.served b hb k c hk hc (hi ▸ h.range k c hk)

-- what an update of some clients may do to each: keep slot and socket, and only end tenancies
structure Ages (c d : Client) : Prop where
  slot : d.slot = c.slot
  sock : d.sock = c.sock
  thread : d.thread ≠ .ended → c.thread ≠ .ended
  sendFailed : d.sendFailed = false → c.sendFailed = false

theorem Ages.tenant {c d : Client} (h : Ages c d) (hd : Tenant d) : Tenant c :=
  ⟨h.thread hd.1, h.sendFailed hd.2⟩

def Distinct (clients : List Client) : Prop :=
  ∀ (j k : Nat) c d, clients[j]? = some c → clients[k]? = some d → j ≠ k →
    c.thread ≠ .ended → d.thread ≠ .ended → c.sock ≠ d.sock

def Fresh (csock : Nat) (clients : List Client) : Prop :=
  ∀ (k : Nat) c, clients[k]? = some c → c.thread ≠ .ended → c.sock ≠ csock

theorem fresh_of_unused {csock : Nat} {clients : List Client}
    (h : ∀ c ∈ clients, c.thread = .ended ∨ c.sock ≠ csock) : Fresh csock clients := by
  intro k c hk hc
  exact (h c (List.mem_of_getElem? hk)).resolve_left hc

theorem Distinct.ages {clients aged : List Client} (h : Distinct clients)
    (hages : ∀ (k : Nat) d, aged[k]? = some d → ∃ c, clients[k]? = some c ∧ Ages c d) :
    Distinct aged := by
  intro j k c d hj hk hne hc hd
  obtain ⟨c', hj', hcc⟩ := hages j c hj
  obtain ⟨d', hk', hdd⟩ := hages k d hk
  rw [hcc.sock, hdd.sock]
  exact h j k c' d' hj' hk' hne (hcc.thread hc) (hdd.thread hd)

theorem Fresh.ages {csock : Nat} {clients aged : List Client} (h : Fresh csock clients)
    (hages : ∀ (k : Nat) d, aged[k]? = some d → ∃ c, clients[k]? = some c ∧ Ages c d) :
    Fresh csock aged := by
  intro k c hk hc
  obtain ⟨c', hk', hcc⟩ := hages k c hk
  rw [hcc.sock]
  exact h k c' hk' (hcc.thread hc)

theorem append_some {clients : List Client} {k : Nat} {c d : Client}
    (h : (clients ++ [c])[k]? = some d) :
    clients[k]? = some d ∨ k = clients.length ∧ d = c := by
  by_cases hlt : k < clients.length
  · rw [List.getElem?_append_left hlt] at h
    exact Or.inl h
  · rw [List.getElem?_append_right (Nat.le_of_not_lt hlt), List.getElem?_singleton] at h
    split at h
    · obtain rfl := Option.some.inj h
      exact Or.inr ⟨by omega, rfl⟩
    · cases h

theorem Distinct.append {clients : List Client} {e : Client} (h : Distinct clients)
    (hfresh : Fresh e.sock clients) : Distinct (clients ++ [e]) := by
  intro j k c d hj hk hne hc hd
  rcases append_some hj with hj' | ⟨rfl, rfl⟩
  · rcases append_some hk with hk' | ⟨rfl, rfl⟩
    · exact h j k c d hj' hk' hne hc hd
    · exact hfresh j c hj' hc
  · rcases append_some hk with hk' | ⟨rfl, rfl⟩
    · exact (hfresh k d hk' hd).symm
    · exact absurd rfl hne

theorem cleared_some {sock : Nat → Option Nat} {i j x : Nat}
    (h : Function.update sock i none j = some x) : j ≠ i ∧ sock j = some x := by
  have hne : j ≠ i := by
    rintro rfl
    rw [Function.update_self] at h
    cases h
  rw [Function.update_of_ne hne] at h
  exact ⟨hne, h⟩

theorem filled_some {sock : Nat → Option Nat} {i j x y : Nat}
    (h : Function.update sock i (some x) j = some y) : j = i ∧ x = y ∨ sock j = some y := by
  by_cases heq : j = i
  · subst heq
    rw [Function.update_self] at h
    exact Or.inl ⟨rfl, Option.some.inj h⟩
  · rw [Function.update_of_ne heq] at h
    exact Or.inr h

theorem Roster.ages {main main' : MainPc} {clients aged : List Client} (h : Roster main clients)
    (hages : ∀ (k : Nat) d, aged[k]? = some d → ∃ c, clients[k]? = some c ∧ Ages c d)
    (hfresh : ∀ csock, main' = .accepted csock → main = .accepted csock)
    (hplaced : ∀ k, main' = .placed k → ∃ c, aged[k]? = some c ∧ c.thread = .notCreated) :
    Roster main' aged where
  distinct := Distinct.ages h.distinct hages
  fresh := by
    intro csock hmain
    exact Fresh.ages (h.fresh csock (hfresh csock hmain)) hages
  range := by
    intro k c hk
    obtain ⟨c', hk', hcc⟩ := hages k c hk
    rw [hcc.slot]
    exact h.range k c' hk'
  alone := by
    intro j k c d hj hk hlt hc
    obtain ⟨c', hj', hcc⟩ := hages j c hj
    obtain ⟨d', hk', hdd⟩ := hages k d hk
    rw [hcc.slot, hdd.slot]
    exact h.alone j k c' d' hj' hk' hlt (hcc.tenant hc)
  placed := hplaced

section Steps

variable {s t : Slots} {clients : List Client} {k : Nat} {c d : Client}

theorem modify_some {f : Client → Client} {j : Nat} (h : (clients.modify k f)[j]? = some d) :
    ∃ c, clients[j]? = some c ∧ d = if k = j then f c else c := by
  rw [List.getElem?_modify] at h
  obtain ⟨c, hc, rfl⟩ := Option.map_eq_some_iff.mp h
  exact ⟨c, hc, rfl⟩

theorem setThread_ages {thread : CmdThread} (hk : clients[k]? = some c) (hc : c.thread ≠ .ended)
    {j : Nat} (h : (clients.modify k fun c => { c with thread })[j]? = some d) :
    ∃ c, clients[j]? = some c ∧ Ages c d := by
  obtain ⟨e, he, rfl⟩ := modify_some h
  refine ⟨e, he, ?_⟩
  split
  · rename_i hj
    subst hj
    obtain rfl : c = e := Option.some.inj (hk.symm.trans he)
    exact ⟨rfl, rfl, fun _ => hc, id⟩
  · exact ⟨rfl, rfl, id, id⟩

theorem setThread_placed {thread : CmdThread} {j : Nat} (hk : clients[k]? = some c)
    (hc : c.thread ≠ .notCreated) (hj : ∃ d, clients[j]? = some d ∧ d.thread = .notCreated) :
    ∃ d, (clients.modify k fun c => { c with thread })[j]? = some d ∧ d.thread = .notCreated := by
  obtain ⟨d, hd, hnot⟩ := hj
  have hne : k ≠ j := by
    rintro rfl
    obtain rfl : c = d := Option.some.inj (hk.symm.trans hd)
    exact hc hnot
  exact ⟨d, (List.getElem?_modify_ne _ _ hne).trans hd, hnot⟩

theorem failSend_placed {j : Nat} (sock : Nat)
    (hj : ∃ d, clients[j]? = some d ∧ d.thread = .notCreated) :
    ∃ d, (clients.map (Client.failSend sock))[j]? = some d ∧ d.thread = .notCreated := by
  obtain ⟨d, hd, hnot⟩ := hj
  refine ⟨d.failSend sock, by rw [List.getElem?_map, hd]; rfl, ?_⟩
  unfold Client.failSend
  split <;> exact hnot

theorem failSend_ages (sock : Nat) (c : Client) : Ages c (c.failSend sock) := by
  unfold Client.failSend
  split
  · exact ⟨rfl, rfl, id, by simp⟩
  · exact ⟨rfl, rfl, id, id⟩

theorem failSend_tenant {sock : Nat} (h : Tenant (c.failSend sock)) : c.sock ≠ sock := by
  intro heq
  have hc := (failSend_ages sock c).tenant h
  have hfailed := h.2
  rw [Client.failSend, if_pos ⟨hc.1, heq⟩] at hfailed
  cases hfailed

theorem tenancy_main {main : MainPc} (hs : Tenancy s)
    (hfresh : ∀ csock, main = .accepted csock →
      ∀ (k : Nat) c, s.clients[k]? = some c → c.thread ≠ .ended → c.sock ≠ csock)
    (hplaced : ∀ k, main ≠ .placed k) : Tenancy { s with main } where
  distinct := hs.distinct
  fresh := hfresh
  range := hs.range
  alone := hs.alone
  placed := fun k hk => absurd hk (hplaced k)
  agree := hs.agree
  held := hs.held
  keeps := hs.keeps
  served := hs.served

theorem tenancy_place {csock slot : Nat} (hs : Tenancy s) (hmain : s.main = .accepted csock)
    (hidle : s.broadcast = none) (hslot : s.freeSlot = some slot) :
    Tenancy
      { s.fill slot (some csock) with
        clients := s.clients ++ [⟨slot, csock, .notCreated, false⟩]
        main := .placed s.clients.length } := by
  have hempty : s.sock slot = none := by
    have hfound := List.find?_some hslot
    exact of_decide_eq_true hfound
  have hrange : slot < maxClients := List.mem_range.mp (List.mem_of_find?_eq_some hslot)
  have hother : ∀ (k : Nat) c, s.clients[k]? = some c → Tenant c → c.slot ≠ slot := by
    intro k c hk hc heq
    have hsock := hs.keeps k c hk hc
    rw [heq, hempty] at hsock
    cases hsock
  have hcases : ∀ (k : Nat) c, (s.clients ++ [⟨slot, csock, .notCreated, false⟩])[k]? = some c →
      s.clients[k]? = some c ∨ k = s.clients.length ∧ c = ⟨slot, csock, .notCreated, false⟩ :=
    fun _ _ => append_some
  have hlast : (s.clients ++ [⟨slot, csock, .notCreated, false⟩])[s.clients.length]? =
      some ⟨slot, csock, .notCreated, false⟩ := List.getElem?_concat_length
  constructor
  · constructor
    · exact Distinct.append hs.distinct (hs.fresh csock hmain)
    · intro csock' hmain'
      cases hmain'
    · intro k c hk
      rcases hcases k c hk with hk | ⟨rfl, rfl⟩
      · exact hs.range k c hk
      · exact hrange
    · intro j k c d hj hk hlt hc
      rcases hcases j c hj with hj | ⟨rfl, rfl⟩
      · rcases hcases k d hk with hk | ⟨rfl, rfl⟩
        · exact hs.alone j k c d hj hk hlt hc
        · exact (hother j c hj hc).symm
      · rcases hcases k d hk with hk | ⟨rfl, rfl⟩
        · obtain ⟨hbound, -⟩ := List.getElem?_eq_some_iff.mp hk
          omega
        · exact absurd hlt (Nat.lt_irrefl _)
    · intro k hk
      obtain rfl := MainPc.placed.inj hk
      exact ⟨_, hlast, rfl⟩
  · exact congrArg (Function.update · slot (some csock)) hs.agree
  · intro i sock hi
    rcases filled_some hi with ⟨rfl, rfl⟩ | hi
    · exact ⟨_, _, hlast, ⟨by simp, rfl⟩, rfl, rfl⟩
    · obtain ⟨k, c, hk, hc, hci, hcs⟩ := hs.held i sock hi
      obtain ⟨hbound, -⟩ := List.getElem?_eq_some_iff.mp hk
      exact ⟨k, c, (List.getElem?_append_left hbound).trans hk, hc, hci, hcs⟩
  · intro k c hk hc
    change Function.update s.sock slot (some csock) c.slot = some c.sock
    rcases hcases k c hk with hk | ⟨rfl, rfl⟩
    · rw [Function.update_of_ne (hother k c hk hc)]
      exact hs.keeps k c hk hc
    · exact Function.update_self ..
  · intro b hb
    change s.broadcast = some b at hb
    rw [hidle] at hb
    cases hb

-- createThread and recvEnds move a thread without ending a tenancy
theorem tenancy_setThread {main : MainPc} {thread : CmdThread} (hs : Tenancy s)
    (hk : s.clients[k]? = some c) (hc : c.thread ≠ .ended) (hthread : thread ≠ .ended)
    (hfresh : ∀ csock, main = .accepted csock → s.main = .accepted csock)
    (hplaced : ∀ j, main = .placed j →
      ∃ c, (s.setThread k thread).clients[j]? = some c ∧ c.thread = .notCreated) :
    Tenancy { s.setThread k thread with main } := by
  have hages : ∀ (j : Nat) d, (s.setThread k thread).clients[j]? = some d →
      ∃ c, s.clients[j]? = some c ∧ Ages c d := fun j d hj => setThread_ages hk hc hj
  constructor
  · exact hs.toRoster.ages hages hfresh hplaced
  · exact hs.agree
  · intro i sock hi
    obtain ⟨j, d, hj, hd, hdi, hds⟩ := hs.held i sock hi
    refine ⟨j, if k = j then { d with thread } else d, ?_, ?_, ?_, ?_⟩
    · change (s.clients.modify k _)[j]? = _
      rw [List.getElem?_modify, hj]
      rfl
    · split
      · exact ⟨hthread, hd.2⟩
      · exact hd
    · split <;> exact hdi
    · split <;> exact hds
  · intro j d hj hd
    obtain ⟨e, he, hed⟩ := hages j d hj
    rw [hed.slot, hed.sock]
    exact hs.keeps j e he (hed.tenant hd)
  · intro b hb j d hj hd hlt
    obtain ⟨e, he, hed⟩ := hages j d hj
    rw [hed.sock]
    rw [hed.slot] at hlt
    exact hs.served b hb j e he (hed.tenant hd) hlt

theorem tenancy_exitThread (hs : Tenancy s) (hidle : s.broadcast = none)
    (hk : s.clients[k]? = some c) (hc : c.thread = .disconnected)
    (hown : s.sock c.slot = none ∨ s.sock c.slot = some c.sock) :
    Tenancy ((s.fill c.slot none).setThread k .ended) := by
  have hopen : c.thread ≠ .ended := by
    rw [hc]
    simp
  have hages : ∀ (j : Nat) d, ((s.fill c.slot none).setThread k .ended).clients[j]? = some d →
      ∃ e, s.clients[j]? = some e ∧ Ages e d := fun j d hj => setThread_ages hk hopen hj
  have hrest : ∀ (j : Nat) d, ((s.fill c.slot none).setThread k .ended).clients[j]? = some d →
      Tenant d → j ≠ k ∧ s.clients[j]? = some d := by
    intro j d hj hd
    obtain ⟨e, he, rfl⟩ := modify_some hj
    by_cases hkj : k = j
    · rw [if_pos hkj] at hd
      exact absurd rfl hd.1
    · rw [if_neg hkj]
      exact ⟨fun h => hkj h.symm, he⟩
  constructor
  · apply hs.toRoster.ages hages fun _ h => h
    intro j hmain
    exact setThread_placed hk (by simp [hc]) (hs.placed j hmain)
  · exact congrArg (Function.update · c.slot none) hs.agree
  · intro i sock hi
    obtain ⟨hne, hi⟩ := cleared_some hi
    obtain ⟨j, d, hj, hd, hdi, hds⟩ := hs.held i sock hi
    have hkj : k ≠ j := by
      rintro rfl
      obtain rfl : c = d := Option.some.inj (hk.symm.trans hj)
      exact hne hdi.symm
    refine ⟨j, d, ?_, hd, hdi, hds⟩
    exact (List.getElem?_modify_ne _ _ hkj).trans hj
  · intro j d hj hd
    obtain ⟨hjk, hold⟩ := hrest j d hj hd
    have hsock := hs.keeps j d hold hd
    have hne : d.slot ≠ c.slot := by
      intro heq
      rw [heq] at hsock
      rcases hown with hnone | hsome
      · rw [hnone] at hsock
        cases hsock
      · exact hs.distinct j k d c hold hk hjk hd.1 hopen
          (Option.some.inj (hsock.symm.trans hsome))
    change Function.update s.sock c.slot none d.slot = some d.sock
    rw [Function.update_of_ne hne]
    exact hsock
  · intro b hb
    change s.broadcast = some b at hb
    rw [hidle] at hb
    cases hb

theorem tenancy_broadcast {b : Broadcast} (hs : Tenancy s)
    (hserved : ∀ (k : Nat) c, s.clients[k]? = some c → Tenant c → c.slot < b.i → c.sock ∈ b.sentTo) :
    Tenancy { s with broadcast := some b } where
  distinct := hs.distinct
  fresh := hs.fresh
  range := hs.range
  alone := hs.alone
  placed := hs.placed
  agree := hs.agree
  held := hs.held
  keeps := hs.keeps
  served := by
    intro b' hb'
    obtain rfl := Option.some.inj hb'
    exact hserved

theorem served_next {b : Broadcast} {sock : Nat} (hs : Tenancy s) (hb : s.broadcast = some b)
    (hsock : s.sock b.i = some sock) (hk : s.clients[k]? = some c) (hc : Tenant c)
    (hlt : c.slot < b.i + 1) : c.sock ∈ b.sentTo ++ [sock] := by
  rcases Nat.lt_succ_iff_lt_or_eq.mp hlt with hbefore | heq
  · exact List.mem_append_left _ (hs.served b hb k c hk hc hbefore)
  · have hkept := hs.keeps k c hk hc
    rw [heq, hsock] at hkept
    rw [Option.some.inj hkept]
    exact List.mem_append_right _ List.mem_cons_self

theorem tenancy_sendFailed {b : Broadcast} {sock : Nat} (hs : Tenancy s)
    (hb : s.broadcast = some b) (hsock : s.sock b.i = some sock) :
    Tenancy
      { s.fill b.i none with
        clients := s.clients.map (Client.failSend sock)
        broadcast := some { b with i := b.i + 1, sentTo := b.sentTo ++ [sock] } } := by
  have hcases : ∀ (k : Nat) d, (s.clients.map (Client.failSend sock))[k]? = some d →
      ∃ c, s.clients[k]? = some c ∧ d = c.failSend sock := by
    intro k d hk
    rw [List.getElem?_map] at hk
    obtain ⟨c, hc, rfl⟩ := Option.map_eq_some_iff.mp hk
    exact ⟨c, hc, rfl⟩
  have hages : ∀ (k : Nat) d, (s.clients.map (Client.failSend sock))[k]? = some d →
      ∃ c, s.clients[k]? = some c ∧ Ages c d := by
    intro k d hk
    obtain ⟨c, hc, rfl⟩ := hcases k d hk
    exact ⟨c, hc, failSend_ages sock c⟩
  obtain ⟨m, holder, hm, hholder, hslot, hheld⟩ := hs.held b.i sock hsock
  constructor
  · apply hs.toRoster.ages hages fun _ h => h
    intro k hmain
    exact failSend_placed sock (hs.placed k hmain)
  · exact congrArg (Function.update · b.i none) hs.agree
  · intro i x hi
    obtain ⟨hne, hi⟩ := cleared_some hi
    obtain ⟨j, d, hj, hd, hdi, hdx⟩ := hs.held i x hi
    have hjm : j ≠ m := by
      rintro rfl
      obtain rfl : d = holder := Option.some.inj (hj.symm.trans hm)
      exact hne (hdi.symm.trans hslot)
    have hother : d.sock ≠ sock := by
      rw [← hheld]
      exact hs.distinct j m d holder hj hm hjm hd.1 hholder.1
    have hsame : d.failSend sock = d := if_neg fun h => hother h.2
    exact ⟨j, d, by rw [List.getElem?_map, hj, Option.map_some, hsame], hd, hdi, hdx⟩
  · intro k d hk hd
    obtain ⟨c, hc, rfl⟩ := hcases k d hk
    have hother := failSend_tenant hd
    have hkept := hs.keeps k c hc ((failSend_ages sock c).tenant hd)
    have hne : c.slot ≠ b.i := by
      intro heq
      rw [heq, hsock] at hkept
      exact hother (Option.some.inj hkept).symm
    change Function.update s.sock b.i none (c.failSend sock).slot = some (c.failSend sock).sock
    rw [(failSend_ages sock c).slot, (failSend_ages sock c).sock, Function.update_of_ne hne]
    exact hkept
  · intro b' hb' k d hk hd hlt
    obtain rfl := Option.some.inj hb'
    obtain ⟨c, hc, rfl⟩ := hcases k d hk
    rw [(failSend_ages sock c).slot] at hlt
    rw [(failSend_ages sock c).sock]
    exact served_next hs hb hsock hc ((failSend_ages sock c).tenant hd) hlt

theorem tenancy_step {e : SlotEvent} (hs : Tenancy s) (hown : Own s e)
    (h : s.step e = some t) : Tenancy t := by
  cases Slots.step_acts h with
  | accept _ hunused =>
    apply tenancy_main hs
    · intro csock' hmain
      obtain rfl := MainPc.accepted.inj hmain
      exact fresh_of_unused hunused
    · simp
  | place hmain hidle hslot => exact tenancy_place hs hmain hidle hslot
  | reject => exact tenancy_main hs (by simp) (by simp)
  | createThread hmain =>
    obtain ⟨c, hk, hc⟩ := hs.placed _ hmain
    exact tenancy_setThread hs hk (by simp [hc]) (by simp) (by simp) (by simp)
  | noThread => exact tenancy_main hs (by simp) (by simp)
  | @recvEnds k c hk hc =>
    apply tenancy_setThread hs hk (by simp [hc]) (by simp) fun _ h => h
    intro j hmain
    exact setThread_placed hk (by simp [hc]) (hs.placed j hmain)
  | exitThread hk hc hidle => exact tenancy_exitThread hs hidle hk hc (hown _ hk)
  | lockClients =>
    apply tenancy_broadcast hs
    intro k c hk hc hlt
    exact absurd hlt (Nat.not_lt_zero _)
  | skip hb hempty =>
    apply tenancy_broadcast hs
    intro k c hk hc hlt
    rcases Nat.lt_succ_iff_lt_or_eq.mp hlt with hbefore | heq
    · exact hs.served _ hb k c hk hc hbefore
    · have hkept := hs.keeps k c hk hc
      rw [heq, hempty] at hkept
      cases hkept
  | send hb hsock =>
    apply tenancy_broadcast hs
    intro k c hk hc hlt
    exact served_next hs hb hsock hk hc hlt
  | sendFails hb hsock => exact tenancy_sendFailed hs hb hsock
  | unlockClients => exact ⟨hs.toRoster, hs.agree, hs.held, hs.keeps, by simp⟩

-- the thread of an earlier client clears the slot of the one that holds it now
theorem not_kept_of_not_own {e : SlotEvent} (hs : Tenancy s) (hown : ¬ Own s e)
    (h : s.step e = some t) : ¬ Kept t := by
  cases Slots.step_acts h with
  | @exitThread k c hk =>
    simp only [Own, not_forall] at hown
    obtain ⟨c', hk', hforeign⟩ := hown
    obtain rfl : c = c' := Option.some.inj (hk.symm.trans hk')
    obtain ⟨hsome, hother⟩ := not_or.mp hforeign
    obtain ⟨sock, hsock⟩ := Option.ne_none_iff_exists'.mp hsome
    obtain ⟨j, d, hj, hd, hdi, hds⟩ := hs.held c.slot sock hsock
    have hkj : k ≠ j := by
      rintro rfl
      obtain rfl : c = d := Option.some.inj (hk.symm.trans hj)
      exact hother (hds ▸ hsock)
    intro hkept
    have hlost := (hkept.holds j d ((List.getElem?_modify_ne _ _ hkj).trans hj) hd).1
    change Function.update s.sock c.slot none d.slot = some d.sock at hlost
    rw [hdi, Function.update_self] at hlost
    cases hlost
  | _ => exact absurd trivial hown

end Steps

theorem tenancy_start : Tenancy Slots.start where
  distinct := by simp [Slots.start]
  fresh := by simp [Slots.start]
  range := by simp [Slots.start]
  alone := by simp [Slots.start]
  placed := by simp [Slots.start]
  agree := rfl
  held := by simp [Slots.start]
  keeps := by simp [Slots.start]
  served := by simp [Slots.start]

theorem slots_kept {s : Slots} {es : List SlotEvent}
    (h : Transition.run Slots.step Slots.start es = some s) :
    Transition.Throughout Slots.step Kept Slots.start es ↔
      Transition.Along Slots.step Own Slots.start es :=
  Transition.throughout_iff (fun _ => Tenancy.kept) (fun _ _ _ => tenancy_step)
    (fun _ _ _ => not_kept_of_not_own) tenancy_start h

def connect (csock : Nat) : List SlotEvent := [.accept csock, .place true, .createThread true]

def failFirst : List SlotEvent :=
  [.lockClients 2, .send [.error], .send [], .send [], .send [], .unlockClients]

theorem slots_kept_reused : ∃ s,
    Transition.run Slots.step Slots.start
      (connect 5 ++ failFirst ++ [.recvEnds 0, .exitThread 0] ++ connect 5) = some s ∧
    (Transition.Throughout Slots.step Kept Slots.start
        (connect 5 ++ failFirst ++ [.recvEnds 0, .exitThread 0] ++ connect 5) ↔
      Transition.Along Slots.step Own Slots.start
        (connect 5 ++ failFirst ++ [.recvEnds 0, .exitThread 0] ++ connect 5)) := by
  have hrun : (Transition.run Slots.step Slots.start
      (connect 5 ++ failFirst ++ [.recvEnds 0, .exitThread 0] ++ connect 5)).isSome := by decide
  have hsome := (Option.some_get hrun).symm
  exact ⟨_, hsome, slots_kept hsome⟩

theorem later_client_cleared : ∃ s,
    Transition.run Slots.step Slots.start
      (connect 5 ++ failFirst ++ connect 6 ++ [.recvEnds 0, .exitThread 0]) = some s ∧
    s.clients[1]? = some ⟨0, 6, .receiving, false⟩ ∧ s.sock 0 = none ∧ ¬ Kept s := by
  have hrun : (Transition.run Slots.step Slots.start
      (connect 5 ++ failFirst ++ connect 6 ++ [.recvEnds 0, .exitThread 0])).isSome := by decide
  refine ⟨_, (Option.some_get hrun).symm, rfl, rfl, ?_⟩
  intro hkept
  have hlost := (hkept.holds 1 ⟨0, 6, .receiving, false⟩ rfl ⟨by simp, rfl⟩).1
  cases hlost

end RtlTcp
end SdrServer
