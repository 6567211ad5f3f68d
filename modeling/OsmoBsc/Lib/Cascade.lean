import Mathlib.Data.List.Count
import Mathlib.Logic.Relation
set_option autoImplicit false

namespace Cascade

/-- Nodes that can be up, and some that depend on others. Taking one down changes no other
node and not what depends on what; `touch` is what is done to a node in any case. -/
structure System (σ ν : Type) [DecidableEq ν] where
  up : σ → ν → Bool
  dep : σ → ν → ν → Bool
  nodes : σ → List ν
  touch : ν → σ → σ
  drop : ν → σ → σ
  up_touch : ∀ v s w, up (touch v s) w = up s w
  dep_touch : ∀ v s, dep (touch v s) = dep s
  nodes_touch : ∀ v s, nodes (touch v s) = nodes s
  up_drop : ∀ v s w, up (drop v s) w = (up s w && w ≠ v)
  dep_drop : ∀ v s, dep (drop v s) = dep s
  nodes_drop : ∀ v s, nodes (drop v s) = nodes s

variable {σ ν : Type} [DecidableEq ν] (c : System σ ν)

/-- Take a node down and then, one after the other and each in the same way, the nodes that
depend on it, at most `n` deep. -/
def System.cascade : Nat → ν → σ → Option σ
  | 0, _, _ => none
  | n+1, v, s =>
    if c.up (c.touch v s) v then
      (c.nodes (c.touch v s)).foldlM (fun s w => if c.dep s w v then System.cascade n w s else some s)
        (c.drop v (c.touch v s))
    else some (c.touch v s)

/-- How many nodes are up. -/
def System.count (s : σ) : Nat := (c.nodes s).countP (c.up s)

/-- `w` depends on `v`, directly or through others. -/
def System.Dependent (s : σ) : ν → ν → Prop :=
  Relation.ReflTransGen fun v w => w ∈ c.nodes s ∧ c.dep s w v = true

/-- Nodes went down from `s` to `s'`: only ones that depend on a node of `from`, and with each
of them the nodes that depend on it. -/
structure System.Falls (start : ν → Prop) (s s' : σ) : Prop where
  dep : c.dep s' = c.dep s
  nodes : c.nodes s' = c.nodes s
  mono : ∀ w, c.up s' w = true → c.up s w = true
  sound : ∀ w, c.up s w = true → c.up s' w = false → ∃ v, start v ∧ c.Dependent s v w
  closed : ∀ v, c.up s v = true → c.up s' v = false →
    ∀ w ∈ c.nodes s, c.dep s w v = true → c.up s' w = false

variable {c} {start start' : ν → Prop} {s s1 s2 s' : σ} {v w : ν} {n : Nat}

theorem System.Falls.refl (s : σ) : c.Falls start s s :=
  ⟨rfl,rfl,fun _ => id,fun w h h' => by simp [h] at h',fun v h h' => by simp [h] at h'⟩

theorem System.Falls.down (h : c.Falls start s s') (hw : c.up s w = false) : c.up s' w = false := by
  by_contra hup
  have := h.mono w (by simpa using hup)
  simp [hw] at this

theorem System.Falls.trans (h : c.Falls start s s1) (h' : c.Falls start s1 s2) : c.Falls start s s2 := by
  have hdep : c.Dependent s1 = c.Dependent s := by
    unfold System.Dependent
    rw [h.dep,h.nodes]
  refine ⟨h'.dep.trans h.dep,h'.nodes.trans h.nodes,fun w hw => h.mono w (h'.mono w hw),?_,?_⟩
  · intro w hup hdown
    cases hw : c.up s1 w with
    | false => exact h.sound w hup hw
    | true => exact hdep ▸ h'.sound w hw hdown
  · intro v hup hdown w hw hdw
    cases hv : c.up s1 v with
    | false => exact h'.down (h.closed v hup hv w hw hdw)
    | true => exact h'.closed v hv hdown w (h.nodes ▸ hw) (h.dep ▸ hdw)

theorem System.Falls.count (h : c.Falls start s s') : c.count s' ≤ c.count s := by
  unfold System.count
  rw [h.nodes]
  exact List.countP_mono_left fun w _ => h.mono w

theorem System.Falls.mono_start (h : c.Falls start s s')
    (hs : ∀ v, start v → ∃ v', start' v' ∧ c.Dependent s v' v) : c.Falls start' s s' := by
  refine ⟨h.dep,h.nodes,h.mono,?_,h.closed⟩
  intro w hup hdown
  obtain ⟨v,hv,hvw⟩ := h.sound w hup hdown
  obtain ⟨v',hv',hvv⟩ := hs v hv
  exact ⟨v',hv',hvv.trans hvw⟩

theorem countP_lt {α : Type} {p q : α → Bool} {l : List α} {a : α} (h : ∀ x, p x = true → q x = true)
    (ha : a ∈ l) (hp : p a = false) (hq : q a = true) : l.countP p < l.countP q := by
  induction l with
  | nil => simp at ha
  | cons x l ih =>
    have hle : l.countP p ≤ l.countP q := List.countP_mono_left fun x _ => h x
    rcases List.mem_cons.mp ha with rfl | ha
    · simp only [List.countP_cons,hp,hq,if_pos,Bool.false_eq_true,if_false]
      omega
    · have hlt := ih ha
      cases hx : p x with
      | false =>
        simp only [List.countP_cons,hx,Bool.false_eq_true,if_false]
        omega
      | true =>
        simp only [List.countP_cons,hx,h x hx,if_true]
        omega

theorem System.count_drop (hv : c.up s v = true) (hmem : v ∈ c.nodes s) :
    c.count (c.drop v s) < c.count s := by
  unfold System.count
  rw [c.nodes_drop]
  exact countP_lt (fun w hw => by simp [c.up_drop] at hw; exact hw.1) hmem (by simp [c.up_drop]) hv

/-- The loop over the nodes that depend on `v`. -/
theorem System.falls_foldlM {l : List ν} (hl : ∀ w ∈ l, w ∈ c.nodes s)
    (ih : ∀ w s, w ∈ c.nodes s → c.count s < n →
      ∃ s', c.cascade n w s = some s' ∧ c.Falls (· = w) s s' ∧ c.up s' w = false)
    (hcount : c.count s < n) :
    ∃ s', l.foldlM (fun s w => if c.dep s w v then c.cascade n w s else some s) s = some s' ∧
      c.Falls (fun w => w ∈ c.nodes s ∧ c.dep s w v = true) s s' ∧ ∀ w ∈ l, c.dep s w v = true → c.up s' w = false := by
  induction l generalizing s with
  | nil => exact ⟨s,rfl,.refl s,by simp⟩
  | cons w l ihl =>
    have hone : ∃ s1, (if c.dep s w v then c.cascade n w s else some s) = some s1 ∧
        c.Falls (fun w => w ∈ c.nodes s ∧ c.dep s w v = true) s s1 ∧ (c.dep s w v = true → c.up s1 w = false) := by
      by_cases hd : c.dep s w v = true
      · obtain ⟨s1,hs1,hf,hw⟩ := ih w s (hl w (by simp)) hcount
        refine ⟨s1,by rw [if_pos hd,hs1],hf.mono_start ?_,fun _ => hw⟩
        rintro v' rfl
        exact ⟨v',⟨hl v' (by simp),hd⟩,.refl⟩
      · exact ⟨s,by rw [if_neg hd],.refl s,fun h => absurd h hd⟩
    obtain ⟨s1,hs1,hf1,hw1⟩ := hone
    have hl1 : ∀ w ∈ l, w ∈ c.nodes s1 := by
      intro w hw
      rw [hf1.nodes]
      exact hl w (by simp [hw])
    obtain ⟨s2,hs2,hf2,hw2⟩ := ihl hl1 (Nat.lt_of_le_of_lt hf1.count hcount)
    rw [hf1.dep,hf1.nodes] at hf2
    rw [hf1.dep] at hw2
    refine ⟨s2,?_,hf1.trans hf2,?_⟩
    · simp only [List.foldlM_cons,hs1]
      exact hs2
    · intro w' hw' hd
      rcases List.mem_cons.mp hw' with rfl | hw'
      · exact hf2.down (hw1 hd)
      · exact hw2 w' hw' hd

/-- As many levels as there are nodes up are enough; the node and all that depend on nodes
that went down are down. -/
theorem System.cascade_falls (hv : v ∈ c.nodes s) (hn : c.count s < n) :
    ∃ s', c.cascade n v s = some s' ∧ c.Falls (· = v) s s' ∧ c.up s' v = false := by
  induction n generalizing v s with
  | zero => omega
  | succ n ih =>
    rw [System.cascade]
    have htouch : c.Falls (· = v) s (c.touch v s) := by
      refine ⟨c.dep_touch v s,c.nodes_touch v s,fun w h => c.up_touch v s w ▸ h,?_,?_⟩
      · intro w h h'
        rw [c.up_touch,h] at h'
        cases h'
      · intro w h h'
        rw [c.up_touch,h] at h'
        cases h'
    by_cases hup : c.up (c.touch v s) v = true
    · rw [if_pos hup]
      have hmem : v ∈ c.nodes (c.touch v s) := by rwa [c.nodes_touch]
      have hcount := Nat.lt_of_lt_of_le (System.count_drop hup hmem) htouch.count
      obtain ⟨s',hs',hf,hall⟩ := System.falls_foldlM (c := c) (s := c.drop v (c.touch v s)) (v := v)
        (l := c.nodes (c.touch v s)) (fun w hw => by rwa [c.nodes_drop])
        (fun w s hw hlt => ih hw hlt) (by omega)
      have hdown : c.up s' v = false := hf.down (by simp [c.up_drop])
      refine ⟨s',hs',htouch.trans ?_,hdown⟩
      refine ⟨hf.dep.trans (c.dep_drop v _),hf.nodes.trans (c.nodes_drop v _),?_,?_,?_⟩
      · intro w hw
        have h1 := hf.mono w hw
        rw [c.up_drop,Bool.and_eq_true] at h1
        exact h1.1
      · intro w hw hw'
        refine ⟨v,rfl,?_⟩
        by_cases he : w = v
        · exact he ▸ .refl
        · obtain ⟨u,hu,huw⟩ := hf.sound w (by simp [c.up_drop,hw,he]) hw'
          rw [c.dep_drop,c.nodes_drop] at hu
          unfold System.Dependent at huw ⊢
          rw [c.dep_drop,c.nodes_drop] at huw
          exact .head hu huw
      · intro u hu hu' w hw hd
        by_cases he : u = v
        · subst he
          exact hall w hw (by rwa [c.dep_drop])
        · exact hf.closed u (by simp [c.up_drop,hu,he]) hu' w (by rwa [c.nodes_drop])
            (by rwa [c.dep_drop])
    · exact ⟨_,by rw [if_neg hup],htouch,by simpa using hup⟩

/-- What is up depends only on what is up. -/
def System.Closed (c : System σ ν) (s : σ) : Prop :=
  ∀ v ∈ c.nodes s, ∀ w ∈ c.nodes s, c.up s w = true → c.dep s w v = true → c.up s v = true

theorem System.Closed.falls (hs : c.Closed s) (h : c.Falls start s s') : c.Closed s' := by
  intro v hv w hw hup hd
  rw [h.nodes] at hv hw
  rw [h.dep] at hd
  have hv1 := hs v hv w hw (h.mono w hup) hd
  by_contra hdown
  have := h.closed v hv1 (by simpa using hdown) w hw hd
  simp [hup] at this

/-- Where what is up depends only on what is up, all that depends on a node goes down. -/
theorem System.Closed.falls_iff (hs : c.Closed s) (hmem : v ∈ c.nodes s) (h : c.Falls (· = v) s s')
    (hv : c.up s' v = false) (w : ν) :
    c.up s w = true ∧ c.up s' w = false ↔ c.up s w = true ∧ c.Dependent s v w := by
  constructor
  · rintro ⟨hup,hdown⟩
    obtain ⟨_,rfl,hd⟩ := h.sound w hup hdown
    exact ⟨hup,hd⟩
  · rintro ⟨hup,hd⟩
    refine ⟨hup,?_⟩
    suffices hboth : w ∈ c.nodes s ∧ c.up s' w = false from hboth.2
    clear hup
    induction hd with
    | refl => exact ⟨hmem,hv⟩
    | @tail u w _ hd ih =>
      obtain ⟨hw,hd⟩ := hd
      refine ⟨hw,?_⟩
      cases hup : c.up s u with
      | true => exact h.closed u hup ih.2 w hw hd
      | false =>
        refine h.down ?_
        by_contra hup'
        have := hs u ih.1 w hw (by simpa using hup') hd
        simp [hup] at this

/-- The same of the nodes of a set. -/
theorem System.Falls.closed_iff (h : c.Falls start s s') (hs : c.Closed s) (hmem : ∀ v, start v → v ∈ c.nodes s)
    (hv : ∀ v, start v → c.up s' v = false) (w : ν) :
    c.up s w = true ∧ c.up s' w = false ↔ c.up s w = true ∧ ∃ v, start v ∧ c.Dependent s v w := by
  refine and_congr_right fun hup => ⟨h.sound w hup,?_⟩
  rintro ⟨v,hstart,hd⟩
  suffices hboth : w ∈ c.nodes s ∧ c.up s' w = false from hboth.2
  clear hup
  induction hd with
  | refl => exact ⟨hmem v hstart,hv v hstart⟩
  | @tail u w _ hd ih =>
    obtain ⟨hw,hd⟩ := hd
    refine ⟨hw,?_⟩
    cases hup : c.up s u with
    | true => exact h.closed u hup ih.2 w hw hd
    | false =>
      refine h.down ?_
      rw [← Bool.not_eq_true] at hup ⊢
      exact fun hup' => hup (hs u ih.1 w hw hup' hd)

/-- What every drop of a node keeps. -/
theorem System.cascade_keeps {P : σ → Prop} (ht : ∀ v s, P s → P (c.touch v s))
    (hd : ∀ v s, P s → P (c.drop v s)) (hs : P s) (h : c.cascade n v s = some s') : P s' := by
  induction n generalizing v s s' with
  | zero => cases h
  | succ n ih =>
    rw [System.cascade] at h
    split at h
    · generalize c.nodes (c.touch v s) = l at h
      have hdrop := hd v _ (ht v s hs)
      generalize c.drop v (c.touch v s) = s1 at h hdrop
      induction l generalizing s1 with
      | nil =>
        cases h
        exact hdrop
      | cons w l ihl =>
        simp only [List.foldlM_cons,bind,Option.bind_eq_some_iff] at h
        obtain ⟨s2,h2,h⟩ := h
        refine ihl s2 h ?_
        split at h2
        · exact ih hdrop h2
        · cases h2
          exact hdrop
    · cases h
      exact ht v s hs

end Cascade
