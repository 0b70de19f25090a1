import LapCom.Socket.Convergence

set_option autoImplicit false

namespace LapCom.Socket.FieldThreads
open LapCom.Machine

variable {V : Type} {c : Protobuf V}

namespace Server

def Starts (s : Server V) (fd : Nat) : Event V → Prop
  | .send t _ => ∃ v, (s.tasks t).writing = some (fd,v,0)
  | _ => False

def Abandons (s : Server V) (fd : Nat) : Event V → Prop
  | .fail t => ∃ v total, s.Midway t fd v total
  | _ => False

def Vacant (s : Server V) (fd : Nat) : Prop := ∀ t v total, ¬ s.Midway t fd v total

def Truncated (c : Protobuf V) (s : Server V) (fd : Nat) (P : V → Prop) (vs : List V) (v : V)
    (total : Nat) : Prop :=
  P v ∧ 0 < total ∧ total < (valueFrame c v).length ∧
    s.written fd = wire c vs++(valueFrame c v).take total

/-- The bytes of `fd` are frames of values of `P`. Once a loop has given up, nobody adds to
the frame that it began. -/
structure Aligned (c : Protobuf V) (s : Server V) (fd : Nat) (P : V → Prop) (broken : Prop) :
    Prop where
  copies : ∀ t v total, (s.tasks t).writing = some (fd,v,total) → P v
  bytes : ∃ vs, (∀ v, v ∈ vs → P v) ∧
    ((¬ broken ∧ s.Carries c fd (s.written fd) vs) ∨
      (broken ∧ s.Vacant fd ∧ ∃ v total, s.Truncated c fd P vs v total))

theorem Truncated.mono {s : Server V} {fd total : Nat} {P Q : V → Prop} {vs : List V} {v : V}
    (h : s.Truncated c fd P vs v total) (hPQ : ∀ v, P v → Q v) : s.Truncated c fd Q vs v total :=
  ⟨hPQ v h.1,h.2⟩

theorem Step.vacant {s s' : Server V} {e : Event V} (h : Step c s e s') {fd : Nat}
    (hvacant : s.Vacant fd) (hstarts : ¬ s.Starts fd e) :
    s'.written fd = s.written fd ∧ s'.Vacant fd := by
  cases e with
  | send t k =>
    cases h with
    | @send t k a total v ht hk hle =>
    have ha : a ≠ fd := by
      rintro rfl
      obtain rfl | hpos := Nat.eq_zero_or_pos total
      · exact hstarts ⟨v,ht⟩
      · exact hvacant t v total ⟨ht,hpos⟩
    obtain ⟨hwritten,hmid⟩ := send_elsewhere (c := c) (k := k) ht ha
      (((valueFrame c v).drop total).take k)
    exact ⟨hwritten,fun t' u n hm => hvacant t' u n ((hmid t' u n).mp hm)⟩
  | fail t =>
    obtain ⟨hwritten,hmid⟩ := h.written nofun (hvacant t)
    exact ⟨hwritten,fun t' u n hm => hvacant t' u n ((hmid t' u n).mp hm)⟩
  | _ =>
    obtain ⟨hwritten,hmid⟩ : s'.written fd = s.written fd ∧
        ∀ t v total, s'.Midway t fd v total ↔ s.Midway t fd v total := h.written nofun trivial
    exact ⟨hwritten,fun t' u n hm => hvacant t' u n ((hmid t' u n).mp hm)⟩

theorem Step.abandons {s s' : Server V} {e : Event V} (h : Step c s e s') {fd : Nat}
    {P : V → Prop} {vs : List V} (habandons : s.Abandons fd e)
    (hcarries : s.Carries c fd (s.written fd) vs)
    (hcopies : ∀ t v total, (s.tasks t).writing = some (fd,v,total) → P v) :
    s'.Vacant fd ∧ ∃ v total, s'.Truncated c fd P vs v total := by
  cases e with
  | fail t =>
    obtain ⟨v,total,hmid⟩ := habandons
    obtain ⟨_,hnone⟩ | ⟨t₀,v₀,total₀,hmid₀,hlt,hdata,hunique⟩ := hcarries
    · exact absurd hmid (hnone t v total)
    obtain rfl := hunique t v total hmid
    have hgives {T : Task V} (hT : T.writing = none) : (s.goto t T).Vacant fd := by
      rintro t' u n ⟨hw,hpos⟩
      by_cases ht : t' = t
      · subst ht
        rw [goto_tasks_self,hT] at hw
        cases hw
      · rw [goto_tasks_of_ne s T ht] at hw
        exact ht (hunique t' u n ⟨hw,hpos⟩)
    have htruncated : s.Truncated c fd P vs v₀ total₀ :=
      ⟨hcopies t v₀ total₀ hmid₀.1,hmid₀.2,hlt,hdata⟩
    cases h with
    | @failReply t a n u onward ht =>
      exact ⟨hgives (by cases onward <;> rfl),v₀,total₀,htruncated⟩
    | failNotify ht => exact ⟨hgives rfl,v₀,total₀,htruncated⟩
  | _ => exact absurd habandons id

theorem Step.aligned {s s' : Server V} {e : Event V} (h : Step c s e s') {fd : Nat}
    {P Q : V → Prop} {broken : Prop} (hs : s.Aligned c fd P broken) (hPQ : ∀ v, P v → Q v)
    (hvalue : (c.serialize s.value).length < 2^31 → Q s.value)
    (hclean : s.Starts fd e → s.Vacant fd ∧ ¬ broken) :
    s'.Aligned c fd Q (broken ∨ s.Abandons fd e) := by
  refine ⟨fun t v total hw => ?_,?_⟩
  · obtain ⟨rfl,hsize⟩ | ⟨n,hw⟩ := h.copies hw
    · exact hvalue hsize
    · exact hPQ v (hs.copies t v n hw)
  obtain ⟨vs,hvs,⟨hwhole,hcarries⟩ | ⟨hbroken,hvacant,v,total,htruncated⟩⟩ := hs.bytes
  · by_cases habandons : s.Abandons fd e
    · obtain ⟨hvacant,v,total,htruncated⟩ := h.abandons habandons hcarries hs.copies
      exact ⟨vs,fun v hv => hPQ v (hvs v hv),
        .inr ⟨.inr habandons,hvacant,v,total,htruncated.mono hPQ⟩⟩
    · have hwhole' : ¬ (broken ∨ s.Abandons fd e) := not_or.mpr ⟨hwhole,habandons⟩
      have hclear : s.Clear fd e := by
        cases e with
        | send t k => exact fun v hw => (hclean ⟨v,hw⟩).1
        | fail t => exact fun v total hmid => habandons ⟨v,total,hmid⟩
        | _ => trivial
      obtain ⟨more,hwritten,hmore⟩ := h.carries hclear
      obtain ⟨_,hcarries'⟩ | ⟨v,hcompletes,hcarries'⟩ := hmore _ _ hcarries
      · refine ⟨vs,fun v hv => hPQ v (hvs v hv),.inl ⟨hwhole',?_⟩⟩
        rw [hwritten]
        exact hcarries'
      · refine ⟨vs++[v],fun u hu => ?_,.inl ⟨hwhole',?_⟩⟩
        · obtain hu | hu := List.mem_append.mp hu
          · exact hPQ u (hvs u hu)
          · cases e with
            | send t k =>
              obtain ⟨n,hw,_⟩ := hcompletes
              rw [List.mem_singleton.mp hu]
              exact hPQ v (hs.copies t v n hw)
            | _ => exact absurd hcompletes id
        · rw [hwritten]
          exact hcarries'
  · have hstarts : ¬ s.Starts fd e := fun hst => (hclean hst).2 hbroken
    obtain ⟨hwritten,hvacant'⟩ := h.vacant hvacant hstarts
    refine ⟨vs,fun v hv => hPQ v (hvs v hv),.inr ⟨.inl hbroken,hvacant',v,total,?_⟩⟩
    rw [Truncated,hwritten]
    exact htruncated.mono hPQ

theorem not_abandons {s : Server V} {e : Event V} (h : s.step c e = s) (fd : Nat) :
    ¬ s.Abandons fd e := by
  cases e with
  | fail t =>
    rintro ⟨v,total,hw,_⟩
    have htask : ((s.step c (.fail t)).tasks t).writing = some (fd,v,total) := by
      rw [h]
      exact hw
    cases hT : s.tasks t with
    | replying a u n onward =>
      simp only [step,hT,goto_tasks_self] at htask
      cases onward <;> cases htask
    | sending a rest toRemove u n =>
      simp only [step,hT,goto_tasks_self] at htask
      cases htask
    | _ =>
      rw [hT] at hw
      cases hw
  | _ => exact id

theorem Aligned.mono {s : Server V} {fd : Nat} {P Q : V → Prop} {broken : Prop}
    (h : s.Aligned c fd P broken) (hPQ : ∀ v, P v → Q v) : s.Aligned c fd Q broken := by
  obtain ⟨vs,hvs,hbytes⟩ := h.bytes
  refine ⟨fun t v total hw => hPQ v (h.copies t v total hw),vs,fun v hv => hPQ v (hvs v hv),?_⟩
  exact hbytes.imp id fun ⟨hbroken,hvacant,v,total,htruncated⟩ =>
    ⟨hbroken,hvacant,v,total,htruncated.mono hPQ⟩

theorem Started.aligned {s : Server V} (h : s.Started) (fd : Nat) (P : V → Prop) :
    s.Aligned c fd P False := by
  have hnone : ∀ t, (s.tasks t).writing = none := fun t => by
    rw [h.tasks t]
    rfl
  refine ⟨fun t v total hw => ?_,[],nofun,.inl ⟨id,.inl ⟨h.written fd,?_⟩⟩⟩
  · rw [hnone t] at hw
    cases hw
  · rintro t v total ⟨hw,_⟩
    rw [hnone t] at hw
    cases hw

end Server

section Run
variable (c : Protobuf V) (s : Server V) (σ : Nat → Event V)

/-- A value that the field had, and that fits a frame. -/
def Shown (k : Nat) (v : V) : Prop :=
  (∃ j, j ≤ k ∧ (stateAt (Server.step c) s σ j).value = v) ∧ (c.serialize v).length < 2^31

def Broken (k fd : Nat) : Prop :=
  ∃ j, j < k ∧ (stateAt (Server.step c) s σ j).Abandons fd (σ j)

/-- A send loop starts on a connection only where no other is in the middle of a frame and
none has given up there. -/
def Undisturbed (n : Nat) : Prop :=
  ∀ k, k < n → ∀ fd, (stateAt (Server.step c) s σ k).Starts fd (σ k) →
    (stateAt (Server.step c) s σ k).Vacant fd ∧ ¬ Broken c s σ k fd

/-- In every run whose loops are undisturbed each connection has whole frames of values of the
field, and at most the beginning of one more: of a loop that is still sending it, or of
one that has given up. -/
theorem frames_whole (n : Nat) (hs : s.Started) (hclean : Undisturbed c s σ n) (k : Nat)
    (hk : k ≤ n) (fd : Nat) :
    ∃ vs, (∀ v, v ∈ vs → Shown c s σ k v) ∧
      ((stateAt (Server.step c) s σ k).written fd = wire c vs ∨
        ∃ v total, (stateAt (Server.step c) s σ k).Truncated c fd (Shown c s σ k) vs v total ∧
          ((∃ t, (stateAt (Server.step c) s σ k).Midway t fd v total) ∨ Broken c s σ k fd)) := by
  have haligned : (stateAt (Server.step c) s σ k).Aligned c fd (Shown c s σ k)
      (Broken c s σ k fd) := by
    induction k with
    | zero =>
      have hnone : ¬ Broken c s σ 0 fd := fun ⟨j,hj,_⟩ => absurd hj (Nat.not_lt_zero j)
      rw [iff_false_intro hnone]
      exact hs.aligned fd _
    | succ k ih =>
      have hk' := ih (by omega)
      have hgrows (v : V) (hv : Shown c s σ k v) : Shown c s σ (k+1) v := by
        obtain ⟨⟨j,hj,hvalue⟩,hsize⟩ := hv
        exact ⟨⟨j,by omega,hvalue⟩,hsize⟩
      have hbroken : Broken c s σ (k+1) fd ↔ Broken c s σ k fd ∨
          (stateAt (Server.step c) s σ k).Abandons fd (σ k) := by
        constructor
        · rintro ⟨j,hj,hab⟩
          obtain hj | rfl := Nat.lt_succ_iff_lt_or_eq.mp hj
          · exact .inl ⟨j,hj,hab⟩
          · exact .inr hab
        · rintro (⟨j,hj,hab⟩ | hab)
          · exact ⟨j,by omega,hab⟩
          · exact ⟨k,by omega,hab⟩
      rw [stateAt_succ,hbroken]
      obtain heq | hstep := Server.step_cases (c := c) (stateAt (Server.step c) s σ k) (σ k)
      · rw [heq,or_iff_left (Server.not_abandons heq fd)]
        exact hk'.mono hgrows
      · exact hstep.aligned hk' hgrows
          (fun hsize => ⟨⟨k,by omega,rfl⟩,hsize⟩) (hclean k (by omega) fd)
  obtain ⟨vs,hvs,⟨_,⟨hdata,_⟩ | ⟨t,v,total,hmid,hlt,hdata,_⟩⟩ |
    ⟨hbroken,_,v,total,htruncated⟩⟩ := haligned.bytes
  · exact ⟨vs,hvs,.inl hdata⟩
  · exact ⟨vs,hvs,.inr ⟨v,total,⟨haligned.copies t v total hmid.1,hmid.2,hlt,hdata⟩,
      .inl ⟨t,hmid⟩⟩⟩
  · exact ⟨vs,hvs,.inr ⟨v,total,htruncated,.inr hbroken⟩⟩

end Run

def cutOff : List (Event (BitVec 7)) :=
  [.arrive 3 .get,.serve 3,.copy (.handler 3),.send (.handler 3) 4,.fail (.handler 3)]

def cutOffRun : Nat → Event (BitVec 7) := schedule cutOff (.copy (.setter 0))

theorem cutOffRun_undisturbed : Undisturbed valueInt unused cutOffRun 5 := by
  have hts : ∀ k, k < 5 → ∀ t, t ∈ (cutOffRun k).thread? → t ∈ [.handler 3] := by decide +kernel
  have hfds : ∀ k, k < 5 → ∀ fd, fd ∈ (cutOffRun k).fd? → fd ∈ [3] := by decide +kernel
  intro k hk fd hstarts
  interval_cases k
  case «3» =>
    refine ⟨fun t => not_midway_of_named unused_atRest hts hfds (by omega) (by decide +kernel)
      t fd,?_⟩
    rintro ⟨j,hj,habandons⟩
    interval_cases j <;> exact habandons
  all_goals exact absurd hstarts id

theorem frames_whole_cutOff :
    ∃ vs, (∀ v, v ∈ vs → Shown valueInt unused cutOffRun 5 v) ∧
      ((stateAt (Server.step valueInt) unused cutOffRun 5).written 3 = wire valueInt vs ∨
        ∃ v total, (stateAt (Server.step valueInt) unused cutOffRun 5).Truncated valueInt 3
            (Shown valueInt unused cutOffRun 5) vs v total ∧
          ((∃ t, (stateAt (Server.step valueInt) unused cutOffRun 5).Midway t 3 v total) ∨
            Broken valueInt unused cutOffRun 5 3)) :=
  frames_whole valueInt unused cutOffRun 5 unused_started cutOffRun_undisturbed 5
    (Nat.le_refl 5) 3

def torn : List (Event (BitVec 7)) :=
  [.arrive 3 .subscribe,.serve 3,.copy (.handler 3),.send (.handler 3) 4,.setLocal 0 5,
    .lock (.setter 0) [3],.copy (.setter 0),.send (.setter 0) 6,.unlock (.setter 0),
    .send (.handler 3) 2]

def tornRun : Nat → Event (BitVec 7) := schedule torn (.copy (.setter 0))

theorem frames_torn :
    unused.Started ∧ (∀ k, k < 10 → ∀ t, tornRun k ≠ .fail t) ∧
    (stateAt (Server.step valueInt) unused tornRun 10).AtRest ∧
    ¬ ∃ vs v total, (stateAt (Server.step valueInt) unused tornRun 10).written 3 =
      wire valueInt vs++(valueFrame valueInt v).take total := by
  have hwritten : (stateAt (Server.step valueInt) unused tornRun 10).written 3 =
      [0,0,0,2,0,0,0,2,8,5,8,1] := by decide +kernel
  have hlength : ∀ v, (valueFrame valueInt v).length ≤ 6 := by decide +kernel
  have hfirst : ∀ v, ¬ valueFrame valueInt v <+: [0,0,0,2,0,0,0,2,8,5,8,1] := by decide +kernel
  refine ⟨unused_started,?_,?_,?_⟩
  · intro k hk t
    interval_cases k <;> exact nofun
  · have hts : ∀ k, k < 10 → ∀ t, t ∈ (tornRun k).thread? → t ∈ [.handler 3,.setter 0] := by
      decide +kernel
    have hfds : ∀ k, k < 10 → ∀ fd, fd ∈ (tornRun k).fd? → fd ∈ [3] := by decide +kernel
    exact atRest_of_named unused_atRest hts hfds (by decide +kernel) (by decide +kernel)
  · rintro ⟨vs,v,total,h⟩
    rw [hwritten] at h
    cases vs with
    | nil =>
      have hlen := congrArg List.length h
      have := hlength v
      simp [wire] at hlen
      omega
    | cons u vs =>
      exact hfirst u ⟨wire valueInt vs++(valueFrame valueInt v).take total,by
        rw [h,← List.append_assoc]
        rfl⟩

end LapCom.Socket.FieldThreads
