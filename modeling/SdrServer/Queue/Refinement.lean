import SdrServer.Queue.Model
import Mathlib.Data.List.Perm.Basic
import Mathlib.Data.List.Range

namespace SdrServer
namespace Queue

variable {bufferSize queueSize : Nat} {q : Queue} {free filled : List Nat}

theorem contents_fill (q : Queue) (node other : Nat) (data : List UInt8) :
    (q.fill node data).contents other = if other = node then data else q.contents other := by
  by_cases h : other = node
  · subst h; simp [contents, fill]
  · simp [contents, fill, h]

theorem map_contents_fill (q : Queue) (node : Nat) (data : List UInt8) {nodes : List Nat}
    (h : node ∉ nodes) : nodes.map (q.fill node data).contents = nodes.map q.contents := by
  apply List.map_congr_left
  intro other ho
  have hne : other ≠ node := fun he => h (he ▸ ho)
  rw [contents_fill, if_neg hne]

@[simp] theorem detached_fill (q : Queue) (node : Nat) (data : List UInt8) :
    (q.fill node data).detachedNode = q.detachedNode := rfl

@[simp] theorem contents_moveToFilled (q : Queue) (node : Nat) :
    (q.moveToFilled node).contents = q.contents := by
  unfold moveToFilled
  cases q.lastFilledNode <;> rfl

@[simp] theorem detached_moveToFilled (q : Queue) (node : Nat) :
    (q.moveToFilled node).detachedNode = q.detachedNode := by
  unfold moveToFilled
  cases q.lastFilledNode <;> rfl

@[simp] theorem buffer_moveToFilled (q : Queue) (node : Nat) :
    (q.moveToFilled node).buffer = q.buffer := by
  unfold moveToFilled
  cases q.lastFilledNode <;> rfl

@[simp] theorem len_moveToFilled (q : Queue) (node : Nat) :
    (q.moveToFilled node).len = q.len := by
  unfold moveToFilled
  cases q.lastFilledNode <;> rfl

@[simp] theorem poison_moveToFilled (q : Queue) (node : Nat) :
    (q.moveToFilled node).poisonPill = q.poisonPill := by
  unfold moveToFilled
  cases q.lastFilledNode <;> rfl

structure PutFrame (q r : Queue) (data : List UInt8) : Prop where
  poison : r.poisonPill = q.poisonPill
  detached : r.detachedNode = q.detachedNode
  len : ∃ node, r.len = Function.update q.len node data.length

theorem queuePut_frame {r : Queue} {data : List UInt8} (h : q.queuePut data = some r) :
    PutFrame q r data := by
  unfold queuePut at h
  split at h
  · obtain ⟨node, -, rfl⟩ := Option.map_eq_some_iff.mp h
    exact ⟨rfl, rfl, node, rfl⟩
  · rename_i node hfree
    obtain rfl := Option.some.inj h
    refine ⟨poison_moveToFilled q node, detached_moveToFilled q node, node, ?_⟩
    rw [fill, len_moveToFilled]

structure CompleteFrame (q r : Queue) : Prop where
  poison : r.poisonPill = q.poisonPill
  detached : r.detachedNode = none
  len : r.len = q.len
  contents : r.contents = q.contents

theorem complete_frame (q : Queue) : CompleteFrame q q.completeBufferProcessing := by
  unfold completeBufferProcessing
  cases q.lastFreeNode <;> exact ⟨rfl, rfl, rfl, rfl⟩

theorem Shape.nodup (h : Shape bufferSize queueSize q free filled) :
    (free ++ filled ++ q.detachedNode.toList).Nodup :=
  h.partition.nodup_iff.mpr List.nodup_range

theorem Shape.count (h : Shape bufferSize queueSize q free filled) :
    free.length + (q.abstraction filled).size = queueSize := by
  have hl := h.partition.length_eq
  simp only [List.length_append, List.length_range] at hl
  simp only [Fifo.size, abstraction, List.length_map]
  cases hd : q.detachedNode with
  | none => simp only [hd, Option.toList_none, Option.map_none, List.length_nil] at hl ⊢; omega
  | some d =>
    simp only [hd, Option.toList_some, Option.map_some, List.length_singleton] at hl ⊢
    omega

theorem Shape.full_iff (h : Shape bufferSize queueSize q free filled) :
    q.firstFreeNode = none ↔ ¬ (q.abstraction filled).size < queueSize := by
  have hc := h.count
  have hh := Chain.path_head q.next h.freePath
  cases free with
  | nil => simp only [List.length_nil] at hc; simp [hh]; omega
  | cons x xs => simp only [List.length_cons] at hc; simp [hh]; omega

theorem Shape.fill (h : Shape bufferSize queueSize q free filled) {node : Nat}
    {data : List UInt8} (hd : data.length ≤ bufferSize) :
    Shape bufferSize queueSize (q.fill node data) free filled := by
  refine ⟨h.freePath, h.freeLast, h.filledPath, h.filledLast, h.detachedNext, h.partition, ?_⟩
  intro other ho
  have hb := h.buffers other ho
  by_cases he : other = node
  · subst he; simp [Queue.fill]; omega
  · simpa [Queue.fill, he] using hb

theorem Shape.moveToFilled {node : Nat} {rest : List Nat}
    (h : Shape bufferSize queueSize q (node :: rest) filled) :
    Shape bufferSize queueSize (q.moveToFilled node) rest (filled ++ [node]) := by
  have hnd := h.nodup
  simp only [List.cons_append, List.nodup_cons, List.mem_append, not_or, List.nodup_append] at hnd
  obtain ⟨⟨⟨hnr, hnf⟩, hnd'⟩, ⟨⟨-, hff, hdisj⟩, -, hdet⟩⟩ := hnd
  obtain ⟨-, hrest⟩ := h.freePath
  have hlast : (if q.next node = none then none else q.lastFreeNode) = rest.getLast? := by
    have hh := Chain.path_head q.next hrest
    rw [h.freeLast]
    cases rest with
    | nil => simp [hh]
    | cons y ys => simp [hh, List.getLast?_cons_cons]
  have hfree : Chain.Path (Function.update q.next node none) (q.next node) rest none :=
    (Chain.path_update q.next _ _ _ hnr).mpr hrest
  have hfilled : Chain.Path (Function.update q.next node none) q.firstFilledNode filled none :=
    (Chain.path_update q.next _ _ _ hnf).mpr h.filledPath
  have hpart : (rest ++ (filled ++ [node]) ++ q.detachedNode.toList).Perm (List.range queueSize) := by
    refine List.Perm.trans ?_ h.partition
    simp only [List.append_assoc, List.cons_append, List.nil_append]
    rw [← List.append_assoc]
    refine List.Perm.trans List.perm_middle ?_
    rw [List.append_assoc]
  have hdn : ∀ d, q.detachedNode = some d → d ≠ node ∧ d ∉ filled := by
    intro d hd
    simp only [hd, Option.toList_some, List.mem_singleton] at hnd' hdet
    exact ⟨fun he => hnd' he.symm, fun hm => hdet d (Or.inr hm) d rfl rfl⟩
  unfold Queue.moveToFilled
  rcases List.eq_nil_or_concat filled with rfl | ⟨init, l, rfl⟩
  · have hl : q.lastFilledNode = none := by simpa using h.filledLast
    simp only [hl]
    refine ⟨hfree, hlast, by simp, by simp, ?_, hpart, h.buffers⟩
    intro d hd
    simpa [(hdn d hd).1] using h.detachedNext d hd
  · simp only [List.concat_eq_append] at *
    have hl : q.lastFilledNode = some l := by simpa using h.filledLast
    have hli : l ∉ init := fun hm => (List.nodup_append.mp hff).2.2 l hm l (by simp) rfl
    have hlr : l ∉ rest := fun hm => hdisj l hm l (by simp) rfl
    simp only [hl]
    refine ⟨(Chain.path_update _ _ _ _ hlr).mpr hfree, hlast,
      Chain.path_link _ hfilled hli hnf (by simp), by simp, ?_, hpart, h.buffers⟩
    intro d hd
    obtain ⟨hdn', hdf⟩ := hdn d hd
    have hdl : d ≠ l := fun he => hdf (by simp [he])
    simpa [hdn', hdl] using h.detachedNext d hd

theorem Shape.take {node : Nat} {rest : List Nat}
    (h : Shape bufferSize queueSize q free (node :: rest)) (hd : q.detachedNode = none) :
    Shape bufferSize queueSize q.takeBufferForProcessing.2 free rest := by
  have hnd := h.nodup
  simp only [hd, Option.toList_none, List.append_nil, List.nodup_append, List.nodup_cons,
    List.mem_cons] at hnd
  obtain ⟨-, ⟨hnr, -⟩, hdisj⟩ := hnd
  have hnf : node ∉ free := fun hm => hdisj node hm node (Or.inl rfl) rfl
  obtain ⟨hhead, hrest⟩ := h.filledPath
  have hlast : (if q.next node = none then none else q.lastFilledNode) = rest.getLast? := by
    have hh := Chain.path_head q.next hrest
    rw [h.filledLast]
    cases rest with
    | nil => simp [hh]
    | cons y ys => simp [hh, List.getLast?_cons_cons]
  have hpart : (free ++ rest ++ [node]).Perm (List.range queueSize) := by
    refine List.Perm.trans ?_ h.partition
    simpa [hd, List.append_assoc] using (List.perm_append_singleton node rest).append_left free
  simp only [takeBufferForProcessing, hhead]
  refine ⟨(Chain.path_update q.next _ _ _ hnf).mpr h.freePath, h.freeLast,
    (Chain.path_update q.next _ _ _ hnr).mpr hrest, hlast, ?_, hpart, h.buffers⟩
  rintro d ⟨⟩
  simp

theorem Shape.complete {node : Nat} (h : Shape bufferSize queueSize q free filled)
    (hd : q.detachedNode = some node) :
    Shape bufferSize queueSize q.completeBufferProcessing (free ++ [node]) filled := by
  have hnd := h.nodup
  simp only [hd, Option.toList_some, List.nodup_append, List.mem_append, List.mem_singleton] at hnd
  obtain ⟨⟨hff, -, hdisj⟩, -, hdet⟩ := hnd
  have hnf : node ∉ free := fun hm => hdet node (Or.inl hm) node rfl rfl
  have hnext := h.detachedNext node hd
  have hpart : (free ++ [node] ++ filled ++ []).Perm (List.range queueSize) := by
    refine List.Perm.trans ?_ h.partition
    simpa [hd, List.append_assoc] using
      (List.perm_append_singleton node filled).symm.append_left free
  unfold completeBufferProcessing
  rcases List.eq_nil_or_concat free with rfl | ⟨init, l, rfl⟩
  · have hl : q.lastFreeNode = none := by simpa using h.freeLast
    simp only [hl, hd]
    exact ⟨⟨rfl, hnext⟩, by simp, h.filledPath, h.filledLast, by simp, hpart, h.buffers⟩
  · simp only [List.concat_eq_append] at *
    have hl : q.lastFreeNode = some l := by simpa using h.freeLast
    have hli : l ∉ init := fun hm => (List.nodup_append.mp hff).2.2 l hm l (by simp) rfl
    have hlf : l ∉ filled := fun hm => hdisj l (by simp) l hm rfl
    simp only [hl, hd]
    exact ⟨Chain.path_link _ h.freePath hli hnf hnext, by simp,
      (Chain.path_update _ _ _ _ hlf).mpr h.filledPath, h.filledLast, by simp, hpart, h.buffers⟩

theorem Shape.interrupt (h : Shape bufferSize queueSize q free filled) :
    Shape bufferSize queueSize q.interruptWaitingTheData free filled :=
  ⟨h.freePath, h.freeLast, h.filledPath, h.filledLast, h.detachedNext, h.partition, h.buffers⟩

theorem createNodes_path (n : Nat) :
    Chain.Path (createNodes n).2.2 (createNodes n).1 (List.range n) none ∧
      (createNodes n).2.1 = (List.range n).getLast? := by
  induction n with
  | zero => exact ⟨rfl, rfl⟩
  | succ n ih =>
    rcases hc : createNodes n with ⟨first, last, next⟩
    rw [hc] at ih
    obtain ⟨hp, hl⟩ := ih
    have hn : n ∉ List.range n := by simp
    have hp' := (Chain.path_update next first none none hn).mpr hp
    rw [List.range_succ]
    rcases List.eq_nil_or_concat (List.range n) with he | ⟨init, l, he⟩
    · have hln : last = none := by simpa [he] using hl
      simp [createNodes, hc, hln, he]
    · simp only [List.concat_eq_append] at he
      have hls : last = some l := by simpa [he] using hl
      have hnd : (init ++ [l]).Nodup := he ▸ List.nodup_range
      have hli : l ∉ init := fun hm => (List.nodup_append.mp hnd).2.2 l hm l (by simp) rfl
      rw [he] at hp' hn ⊢
      simp only [createNodes, hc, hls]
      exact ⟨Chain.path_link _ hp' hli hn (by simp), by simp⟩

theorem shape_createQueue (bufferSize queueSize : Nat) :
    Shape bufferSize queueSize (createQueue bufferSize queueSize) (List.range queueSize) [] := by
  obtain ⟨hp, hl⟩ := createNodes_path queueSize
  exact ⟨hp, hl, rfl, rfl, by simp [createQueue], by simp [createQueue], by simp [createQueue]⟩

theorem Shape.put_room {node : Nat} {rest : List Nat} {data : List UInt8}
    (h : Shape bufferSize queueSize q (node :: rest) filled) (hd : data.length ≤ bufferSize) :
    ∃ r, q.queuePut data = some r ∧ Shape bufferSize queueSize r rest (filled ++ [node]) ∧
      r.abstraction (filled ++ [node]) =
        { q.abstraction filled with pending := filled.map q.contents ++ [data] } := by
  have hnd := h.nodup
  simp only [List.cons_append, List.nodup_cons, List.mem_append, not_or] at hnd
  obtain ⟨⟨⟨-, hnf⟩, hndet⟩, -⟩ := hnd
  have hf : q.firstFreeNode = some node := h.freePath.1
  refine ⟨(q.moveToFilled node).fill node data, by simp [queuePut, hf], h.moveToFilled.fill hd, ?_⟩
  have hheld : ∀ d, q.detachedNode = some d → d ≠ node := fun d hd he => hndet (by simp [hd, he])
  have hmap := map_contents_fill (q.moveToFilled node) node data hnf
  have hdet : (q.detachedNode.map ((q.moveToFilled node).fill node data).contents) =
      q.detachedNode.map q.contents := by
    cases hq : q.detachedNode with
    | none => rfl
    | some d => simp [contents_fill, hheld d hq]
  simp only [abstraction, List.map_append, hmap, contents_moveToFilled, List.map_cons, List.map_nil,
    contents_fill, if_pos, detached_fill, detached_moveToFilled, hdet]

theorem Shape.put_full {data : List UInt8} (h : Shape bufferSize queueSize q [] filled)
    (hs : 2 ≤ queueSize) (hd : data.length ≤ bufferSize) :
    ∃ r, q.queuePut data = some r ∧ Shape bufferSize queueSize r [] filled ∧ filled ≠ [] ∧
      r.abstraction filled =
        { q.abstraction filled with pending := (filled.map q.contents).dropLast ++ [data] } := by
  have hne : filled ≠ [] := by
    rintro rfl
    have hc := h.count
    have hl : ((q.detachedNode.map q.contents).toList).length ≤ 1 := by
      cases q.detachedNode <;> simp
    simp only [Fifo.size, abstraction, List.map_nil, List.length_nil] at hc
    omega
  have hf : q.firstFreeNode = none := h.freePath
  obtain ⟨init, l, rfl⟩ := (List.eq_nil_or_concat filled).resolve_left hne
  simp only [List.concat_eq_append] at *
  have hl : q.lastFilledNode = some l := by simpa using h.filledLast
  have hnd := h.nodup
  simp only [List.nil_append, List.nodup_append] at hnd
  obtain ⟨⟨-, -, hdisj⟩, -, hdet⟩ := hnd
  have hli : l ∉ init := fun hm => hdisj l hm l (by simp) rfl
  refine ⟨q.fill l data, by simp [queuePut, hf, hl], h.fill hd, hne, ?_⟩
  have hheld : (q.detachedNode.map (q.fill l data).contents) = q.detachedNode.map q.contents := by
    cases hq : q.detachedNode with
    | none => rfl
    | some d =>
      have hdl : d ≠ l := fun he => hdet l (by simp) d (by simp [hq]) he.symm
      simp [contents_fill, hdl]
  simp only [abstraction, List.map_append, map_contents_fill q l data hli, List.map_cons,
    List.map_nil, contents_fill, if_pos, List.dropLast_concat, detached_fill, hheld]

end Queue
end SdrServer
