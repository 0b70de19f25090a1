import LapCom.Registry.Initializer
import LapCom.Registry.Routing

set_option autoImplicit false

/-! The daemons behind the two socket paths and the processes that attach what they are sent. -/

namespace LapCom.Processes
open LapCom.Kernel LapCom.Machine LapCom.Registry

inductive Side where
  | qm
  | asil
  deriving DecidableEq

/-- The daemons that serve one path, one after another or side by side. -/
structure Fleet where
  daemons : Nat → Initializer.Daemon
  kernel : Initializer.Kernel

def Fleet.initial : Fleet := ⟨fun _ => .new,.initial⟩

namespace Fleet

def system (f : Fleet) (d : Nat) : Initializer.System := ⟨f.daemons d,f.kernel⟩

def memfd (f : Fleet) (d : Nat) : Option Nat := (f.daemons d).server.memfd

def step (f : Fleet) (d : Nat) (e : Initializer.Event) : Fleet :=
  let s := Initializer.step (f.system d) e
  ⟨Function.update f.daemons d s.daemon,s.kernel⟩

def bank (f : Fleet) (attached : Option Nat) : SingleRegistry :=
  ⟨attached.map f.kernel.memory⟩

def written (f : Fleet) (attached : Option Nat) (reg : SingleRegistry) : Fleet :=
  match attached, reg.slots with
  | some o, some bank =>
    { f with kernel := { f.kernel with memory := Function.update f.kernel.memory o bank } }
  | _, _ => f

end Fleet

/-- `attached` is the memory that a process has mapped for each of its two registries. -/
structure System where
  fleets : Side → Fleet
  attached : Nat → Side → Option Nat

def System.initial : System := ⟨fun _ => .initial,fun _ _ => none⟩

/-- The steps of the daemons; `InitializeFromSocket` of a process for one side, with what came over
its connection; the end of a process or of its registry; an operation on its registry. -/
inductive Event where
  | daemon (side : Side) (d : Nat) (e : Initializer.Event)
  | receive (p : Nat) (side : Side) (client : Nat)
  | detach (p : Nat)
  | operate (p : Nat) (op : Op)

namespace System

def registry (s : System) (p : Nat) : SharedMemoryRegistry :=
  ⟨(s.fleets .qm).bank (s.attached p .qm),(s.fleets .asil).bank (s.attached p .asil)⟩

def reply (s : System) (p : Nat) (op : Op) : Reply := (op.exec (s.registry p)).1

def operate (s : System) (p : Nat) (op : Op) : System :=
  let reg := next (s.registry p) op
  { s with
    fleets := fun
      | .qm => (s.fleets .qm).written (s.attached p .qm) reg.qm
      | .asil => (s.fleets .asil).written (s.attached p .asil) reg.asil }

/-- A process that is initialised for the side keeps what it has. -/
def receive (s : System) (p : Nat) (side : Side) (client : Nat) : System :=
  match s.attached p side with
  | some _ => s
  | none =>
    { s with
      attached := Function.update s.attached p
        (Function.update (s.attached p) side ((s.fleets side).kernel.mail client)) }

end System

def step (s : System) : Event → System
  | .daemon side d e =>
    { s with fleets := Function.update s.fleets side ((s.fleets side).step d e) }
  | .receive p side client => s.receive p side client
  | .detach p => { s with attached := Function.update s.attached p fun _ => none }
  | .operate p op => s.operate p op

abbrev systemAt (σ : Nat → Event) (k : Nat) : System := stateAt step .initial σ k

section Creation
open LapCom.Initializer
variable {s : Initializer.System}

def Creates (s : Initializer.System) (e : Initializer.Event) : Prop :=
  s.daemon.phase = .idle ∧ e = .initializeRegistry ⟨true,true,true⟩

theorem initializeSlots_eq (bank : Bank) : initializeSlots bank = .fresh := by
  have hfold : ∀ (is : List SlotIndex) (bank : Bank) (i : SlotIndex),
      is.foldl (fun bank i => Function.update bank i ServiceSlot.new) bank i =
        if i ∈ is then .new else bank i := by
    intro is
    induction is with
    | nil => intro bank i; simp
    | cons j is ih =>
      intro bank i
      rw [List.foldl_cons,ih]
      by_cases hi : i ∈ is
      · simp [hi]
      · by_cases hj : i = j <;> simp [hi,hj]
  funext i
  rw [initializeSlots,hfold,if_pos (List.mem_finRange i)]
  rfl

theorem not_creates {e : Initializer.Event} (he : ∀ calls, e ≠ .initializeRegistry calls) :
    ¬ Creates s e :=
  fun ⟨_,heq⟩ => he _ heq

theorem memfd_step (s : Initializer.System) (e : Initializer.Event) :
    (Creates s e ∧
      (Initializer.step s e).daemon.server.memfd = some s.kernel.memfds.acquired ∧
      (Initializer.step s e).kernel.memfds.acquired = s.kernel.memfds.acquired+1 ∧
      (Initializer.step s e).kernel.memory =
        Function.update s.kernel.memory s.kernel.memfds.acquired .fresh) ∨
    (¬ Creates s e ∧
      ((Initializer.step s e).daemon.server.memfd = none ∨
        (Initializer.step s e).daemon.server.memfd = s.daemon.server.memfd) ∧
      s.kernel.memfds.acquired ≤ (Initializer.step s e).kernel.memfds.acquired ∧
      (Initializer.step s e).kernel.memory = s.kernel.memory) := by
  have hother : ∀ s', Same s s' → ¬ Creates s e →
      ¬ Creates s e ∧ (s'.daemon.server.memfd = none ∨
        s'.daemon.server.memfd = s.daemon.server.memfd) ∧
      s.kernel.memfds.acquired ≤ s'.kernel.memfds.acquired ∧
      s'.kernel.memory = s.kernel.memory := fun s' hsame hno =>
    ⟨hno,.inr hsame.memfd,Nat.le_of_eq (congrArg Ledger.acquired hsame.memfds.symm),hsame.memory⟩
  cases e with
  | initializeRegistry calls =>
    by_cases hidle : s.daemon.phase = .idle
    · simp only [Initializer.step,Daemon.step,if_pos hidle,RegistryInitializer.initializeRegistry]
      rcases createMemfd_cases s.daemon.server s.kernel calls with ⟨e,heq⟩ | ⟨e,heq⟩ | heq
      · have hno : ¬ Creates s (.initializeRegistry calls) := by
          rintro ⟨_,hcalls⟩
          cases hcalls
          cases heq
        rw [heq]
        exact .inr ⟨hno,.inl rfl,Nat.le_refl _,rfl⟩
      · have hno : ¬ Creates s (.initializeRegistry calls) := by
          rintro ⟨_,hcalls⟩
          cases hcalls
          cases heq
        rw [heq]
        exact .inr ⟨hno,.inl rfl,Nat.le_succ _,rfl⟩
      · have hcalls : calls = ⟨true,true,true⟩ := by
          rcases calls with ⟨_ | _,_ | _,_ | _⟩ <;> first | rfl | cases heq
        rw [heq,hcalls]
        refine .inl ⟨⟨hidle,rfl⟩,rfl,rfl,?_⟩
        rw [initializeSlots_eq]
    · rw [(step_busy hidle).1]
      exact .inr (hother s (.refl s) fun h => hidle h.1)
  | run calls =>
    refine .inr ?_
    by_cases hidle : s.daemon.phase = .idle
    · simp only [Initializer.step,Daemon.step,if_pos hidle]
      rcases createSocket_cases s.daemon.server s.kernel calls with ⟨e,heq⟩ | ⟨e,heq⟩ | heq <;>
        rw [heq] <;> exact ⟨not_creates (by simp),.inr rfl,Nat.le_refl _,rfl⟩
    · rw [(step_busy hidle).2.1]
      exact hother s (.refl s) (not_creates (by simp))
  | serve outcome => exact .inr (hother _ (serve_same s outcome) (not_creates (by simp)))
  | shutdown t => exact .inr (hother _ (shutdown_same s t) (not_creates (by simp)))
  | stopSocket t => exact .inr (hother _ (stopSocket_same s t) (not_creates (by simp)))
  | destroy =>
    refine .inr ?_
    by_cases hidle : s.daemon.phase = .idle
    · obtain ⟨stopped,heq⟩ := stopSocket_eq s.daemon.server s.kernel
      have hacquired : (s.kernel.memfds.releaseAll s.daemon.server.memfd.toList).acquired =
          s.kernel.memfds.acquired := by
        cases s.daemon.server.memfd <;> rfl
      refine ⟨not_creates (by simp),.inl ?_,?_,?_⟩ <;>
        simp only [Initializer.step,Daemon.step,if_pos hidle,RegistryInitializer.destroy,
          RegistryInitializer.shutdown,heq]
      · cases s.daemon.server.running <;> exact Nat.le_of_eq hacquired.symm
      · cases s.daemon.server.running <;> rfl
    · rw [(step_busy hidle).2.2]
      exact hother s (.refl s) (not_creates (by simp))

/-- What is sent over a connection is the memfd that the daemon has then. -/
theorem mail_step (s : Initializer.System) (e : Initializer.Event) :
    (Initializer.step s e).kernel.mail = s.kernel.mail ∨
      ∃ client o, e = .serve .done ∧ s.daemon.phase = .handleClient client ∧
        s.daemon.server.memfd = some o ∧
        (Initializer.step s e).kernel.mail = Function.update s.kernel.mail client (some o) := by
  cases e with
  | initializeRegistry calls =>
    refine .inl ?_
    simp only [Initializer.step,Daemon.step,RegistryInitializer.initializeRegistry]
    split_ifs
    · rcases createMemfd_cases s.daemon.server s.kernel calls with ⟨e,heq⟩ | ⟨e,heq⟩ | heq <;>
        rw [heq]
    · rfl
  | run calls =>
    refine .inl ?_
    simp only [Initializer.step,Daemon.step]
    split_ifs
    · rcases createSocket_cases s.daemon.server s.kernel calls with ⟨e,heq⟩ | ⟨e,heq⟩ | heq <;>
        rw [heq]
    · rfl
  | serve outcome =>
    rcases s with ⟨⟨server,phase,stoppers⟩,kernel⟩
    cases phase with
    | accept => exact .inl (by cases outcome <;> rfl)
    | handleClient client =>
      cases hmemfd : server.memfd with
      | none =>
        refine .inl ?_
        simp [Initializer.step,Daemon.step,Daemon.serve,RegistryInitializer.handleClient,
          RegistryInitializer.sendMemfdToClient,hmemfd]
      | some o =>
        cases outcome with
        | done =>
          refine .inr ⟨client,o,rfl,rfl,rfl,?_⟩
          simp [Initializer.step,Daemon.step,Daemon.serve,RegistryInitializer.handleClient,
            RegistryInitializer.sendMemfdToClient,hmemfd]
        | failed =>
          refine .inl ?_
          simp [Initializer.step,Daemon.step,Daemon.serve,RegistryInitializer.handleClient,
            RegistryInitializer.sendMemfdToClient,hmemfd]
        | waiting =>
          refine .inl ?_
          simp [Initializer.step,Daemon.step,Daemon.serve,RegistryInitializer.handleClient,
            RegistryInitializer.sendMemfdToClient,hmemfd]
    | _ => exact .inl rfl
  | shutdown t =>
    refine .inl ?_
    simp only [Initializer.step,Daemon.step]
    split_ifs <;> rfl
  | stopSocket t =>
    obtain ⟨stopped,heq⟩ := stopSocket_eq s.daemon.server s.kernel
    refine .inl ?_
    simp only [Initializer.step,Daemon.step]
    cases s.daemon.stoppers t <;> simp [heq]
  | destroy =>
    obtain ⟨stopped,heq⟩ := stopSocket_eq s.daemon.server s.kernel
    refine .inl ?_
    simp only [Initializer.step,Daemon.step,RegistryInitializer.destroy,
      RegistryInitializer.shutdown,heq]
    split_ifs <;> rfl

end Creation

section Memories
variable {s : System}

def System.memfd (s : System) (side : Side) (d : Nat) : Option Nat := (s.fleets side).memfd d

def System.created (s : System) (side : Side) : Nat := (s.fleets side).kernel.memfds.acquired

def Creating (s : System) (e : Event) (side : Side) (d : Nat) : Prop :=
  ∃ e', e = .daemon side d e' ∧ Creates ((s.fleets side).system d) e'

def Sends (s : System) (e : Event) (side : Side) (d o : Nat) : Prop :=
  e = .daemon side d (.serve .done) ∧ s.memfd side d = some o ∧
    ∃ client, ((s.fleets side).daemons d).phase = .handleClient client

/-- Memories are numbered as they are made, each by one daemon, and are empty at first. -/
structure Numbered (s : System) : Prop where
  memfd_lt : ∀ side d o, s.memfd side d = some o → o < s.created side
  injective : ∀ side d d' o, s.memfd side d = some o → s.memfd side d' = some o → d = d'
  mail_lt : ∀ side client o, (s.fleets side).kernel.mail client = some o → o < s.created side
  attached_lt : ∀ p side o, s.attached p side = some o → o < s.created side
  fresh : ∀ side o, s.created side ≤ o → (s.fleets side).kernel.memory o = .fresh

theorem written_frame (f : Fleet) (attached : Option Nat) (reg : SingleRegistry) :
    (f.written attached reg).daemons = f.daemons ∧
      (f.written attached reg).kernel.memfds = f.kernel.memfds ∧
      (f.written attached reg).kernel.mail = f.kernel.mail ∧
      ∀ o, attached ≠ some o → (f.written attached reg).kernel.memory o = f.kernel.memory o := by
  unfold Fleet.written
  cases attached with
  | none => exact ⟨rfl,rfl,rfl,fun _ _ => rfl⟩
  | some x =>
    cases reg.slots with
    | none => exact ⟨rfl,rfl,rfl,fun _ _ => rfl⟩
    | some bank =>
      refine ⟨rfl,rfl,rfl,fun o ho => ?_⟩
      have hne : o ≠ x := by
        rintro rfl
        exact ho rfl
      exact Function.update_of_ne hne _ _

theorem operate_frame (s : System) (p : Nat) (op : Op) (side : Side) :
    ((s.operate p op).fleets side).daemons = (s.fleets side).daemons ∧
      ((s.operate p op).fleets side).kernel.memfds = (s.fleets side).kernel.memfds ∧
      ((s.operate p op).fleets side).kernel.mail = (s.fleets side).kernel.mail ∧
      ∀ o, s.attached p side ≠ some o →
        ((s.operate p op).fleets side).kernel.memory o = (s.fleets side).kernel.memory o := by
  cases side <;> exact written_frame _ _ _

theorem memfd_next (s : System) (e : Event) (side : Side) :
    s.created side ≤ (step s e).created side ∧
      ∀ d o, (step s e).memfd side d = some o →
        (s.memfd side d = some o ∧ ¬ Creating s e side d) ∨
          (Creating s e side d ∧ o = s.created side ∧
            (step s e).created side = s.created side+1) := by
  have hsame : (step s e).fleets side = s.fleets side → (∀ d, ¬ Creating s e side d) →
      s.created side ≤ (step s e).created side ∧
        ∀ d o, (step s e).memfd side d = some o →
          (s.memfd side d = some o ∧ ¬ Creating s e side d) ∨
            (Creating s e side d ∧ o = s.created side ∧
              (step s e).created side = s.created side+1) := by
    intro hfleet hno
    simp only [System.created,System.memfd,hfleet]
    exact ⟨Nat.le_refl _,fun d o h => .inl ⟨h,hno d⟩⟩
  cases e with
  | daemon side' d e =>
    by_cases hside : side = side'
    · subst hside
      have hfleet : (step s (.daemon side d e)).fleets side = (s.fleets side).step d e :=
        Function.update_self _ _ _
      have hcreating : ∀ d', Creating s (.daemon side d e) side d' ↔
          d' = d ∧ Creates ((s.fleets side).system d) e := by
        intro d'
        constructor
        · rintro ⟨e',heq,hcreates⟩
          cases heq
          exact ⟨rfl,hcreates⟩
        · rintro ⟨rfl,hcreates⟩
          exact ⟨e,rfl,hcreates⟩
      have hdaemon : ∀ d' o, (step s (.daemon side d e)).memfd side d' = some o →
          (d' ≠ d ∧ s.memfd side d' = some o) ∨
            (d' = d ∧
              (Initializer.step ((s.fleets side).system d) e).daemon.server.memfd = some o) := by
        intro d' o h
        rw [System.memfd,hfleet,Fleet.memfd,Fleet.step] at h
        by_cases hd : d' = d
        · subst hd
          simp only [Function.update_self] at h
          exact .inr ⟨rfl,h⟩
        · simp only [Function.update_of_ne hd] at h
          exact .inl ⟨hd,h⟩
      have hcreated : (step s (.daemon side d e)).created side =
          (Initializer.step ((s.fleets side).system d) e).kernel.memfds.acquired := by
        rw [System.created,hfleet]
        rfl
      rcases memfd_step ((s.fleets side).system d) e with
        ⟨hcreates,hmemfd,hacquired,_⟩ | ⟨hno,hmemfd,hacquired,_⟩
      · refine ⟨?_,fun d' o h => ?_⟩
        · rw [hcreated,hacquired]
          exact Nat.le_succ _
        · rcases hdaemon d' o h with ⟨hd,h⟩ | ⟨rfl,h⟩
          · exact .inl ⟨h,fun hc => hd ((hcreating d').mp hc).1⟩
          · rw [hmemfd] at h
            exact .inr ⟨(hcreating d').mpr ⟨rfl,hcreates⟩,(Option.some.inj h).symm,
              hcreated.trans hacquired⟩
      · refine ⟨?_,fun d' o h => .inl ⟨?_,fun hc => hno ((hcreating d').mp hc).2⟩⟩
        · rw [hcreated]
          exact hacquired
        · rcases hdaemon d' o h with ⟨_,h⟩ | ⟨rfl,h⟩
          · exact h
          · rcases hmemfd with hnone | hkept
            · rw [hnone] at h
              cases h
            · exact hkept.symm.trans h
    · refine hsame (Function.update_of_ne hside _ _) ?_
      rintro d' ⟨e',heq,_⟩
      cases heq
      exact hside rfl
  | receive p side' client =>
    refine hsame ?_ (by rintro d ⟨_,heq,_⟩; cases heq)
    simp only [step,System.receive]
    cases s.attached p side' <;> rfl
  | detach p => exact hsame rfl (by rintro d ⟨_,heq,_⟩; cases heq)
  | operate p op =>
    obtain ⟨hdaemons,hmemfds,_⟩ := operate_frame s p op side
    have hcreated : (step s (.operate p op)).created side = s.created side := by
      rw [System.created,System.created]
      exact congrArg Ledger.acquired hmemfds
    refine ⟨Nat.le_of_eq hcreated.symm,fun d o h => .inl ⟨?_,by rintro ⟨_,heq,_⟩; cases heq⟩⟩
    rw [System.memfd,Fleet.memfd] at h ⊢
    rw [← hdaemons]
    exact h

theorem mail_next (s : System) (e : Event) {side : Side} {client o : Nat}
    (h : ((step s e).fleets side).kernel.mail client = some o) :
    (s.fleets side).kernel.mail client = some o ∨ ∃ d, Sends s e side d o := by
  cases e with
  | daemon side' d e =>
    by_cases hside : side = side'
    · subst hside
      have hfleet : (step s (.daemon side d e)).fleets side = (s.fleets side).step d e :=
        Function.update_self _ _ _
      rw [hfleet,Fleet.step] at h
      rcases mail_step ((s.fleets side).system d) e with hmail | ⟨c,x,rfl,hphase,hmemfd,hmail⟩
      · rw [hmail] at h
        exact .inl h
      · simp only [hmail] at h
        by_cases hc : client = c
        · subst hc
          rw [Function.update_self] at h
          obtain rfl := Option.some.inj h
          exact .inr ⟨d,rfl,hmemfd,client,hphase⟩
        · rw [Function.update_of_ne hc] at h
          exact .inl h
    · have hfleet : (step s (.daemon side' d e)).fleets side = s.fleets side :=
        Function.update_of_ne hside _ _
      rw [hfleet] at h
      exact .inl h
  | receive p side' c =>
    simp only [step,System.receive] at h
    revert h
    cases s.attached p side' <;> exact .inl
  | detach p => exact .inl h
  | operate p op =>
    rw [← (operate_frame s p op side).2.2.1]
    exact .inl h

theorem attached_next (s : System) (e : Event) {p : Nat} {side : Side} {o : Nat}
    (h : (step s e).attached p side = some o) :
    s.attached p side = some o ∨ ∃ client, (s.fleets side).kernel.mail client = some o := by
  cases e with
  | daemon side' d e => exact .inl h
  | receive p' side' client =>
    simp only [step,System.receive] at h
    cases hold : s.attached p' side' with
    | some x =>
      rw [hold] at h
      exact .inl h
    | none =>
      simp only [hold] at h
      by_cases hp : p = p'
      · subst hp
        rw [Function.update_self] at h
        by_cases hside : side = side'
        · subst hside
          rw [Function.update_self] at h
          exact .inr ⟨client,h⟩
        · rw [Function.update_of_ne hside] at h
          exact .inl h
      · rw [Function.update_of_ne hp] at h
        exact .inl h
  | detach p' =>
    by_cases hp : p = p'
    · subst hp
      simp [step] at h
    · simp only [step,Function.update_of_ne hp] at h
      exact .inl h
  | operate p' op => exact .inl h

theorem memory_next (hs : Numbered s) {e : Event} (he : ∀ p op, e ≠ .operate p op) (side : Side) :
    ((step s e).fleets side).kernel.memory = (s.fleets side).kernel.memory := by
  cases e with
  | daemon side' d e =>
    by_cases hside : side = side'
    · subst hside
      have hfleet : (step s (.daemon side d e)).fleets side = (s.fleets side).step d e :=
        Function.update_self _ _ _
      rw [hfleet,Fleet.step]
      rcases memfd_step ((s.fleets side).system d) e with ⟨_,_,_,hmemory⟩ | ⟨_,_,_,hmemory⟩
      · simp only [hmemory]
        exact Function.update_eq_self_iff.mpr (hs.fresh side _ (Nat.le_refl _)).symm
      · exact hmemory
    · simp only [step,Function.update_of_ne hside]
  | receive p side' client =>
    simp only [step,System.receive]
    cases s.attached p side' <;> rfl
  | detach p => rfl
  | operate p op => exact absurd rfl (he p op)

theorem Numbered.step (h : Numbered s) (e : Event) : Numbered (step s e) := by
  have hcreated := fun side => (memfd_next s e side).1
  have hlt : ∀ side o, o < s.created side → o < (Processes.step s e).created side :=
    fun side o ho => Nat.lt_of_lt_of_le ho (hcreated side)
  refine ⟨fun side d o hd => ?_,fun side d d' o hd hd' => ?_,fun side client o hmail => ?_,
    fun p side o hp => ?_,fun side o ho => ?_⟩
  · rcases (memfd_next s e side).2 d o hd with ⟨hd,_⟩ | ⟨_,rfl,hnew⟩
    · exact hlt side o (h.memfd_lt side d o hd)
    · omega
  · rcases (memfd_next s e side).2 d o hd with ⟨hd,_⟩ | ⟨hc,ho,_⟩
    · rcases (memfd_next s e side).2 d' o hd' with ⟨hd',_⟩ | ⟨_,ho,_⟩
      · exact h.injective side d d' o hd hd'
      · have hbound := h.memfd_lt side d o hd
        omega
    · rcases (memfd_next s e side).2 d' o hd' with ⟨hd',_⟩ | ⟨hc',_,_⟩
      · have hbound := h.memfd_lt side d' o hd'
        omega
      · obtain ⟨e₁,rfl,_⟩ := hc
        obtain ⟨e₂,heq,_⟩ := hc'
        cases heq
        rfl
  · rcases mail_next s e hmail with hmail | ⟨d,hsends⟩
    · exact hlt side o (h.mail_lt side client o hmail)
    · exact hlt side o (h.memfd_lt side d o hsends.2.1)
  · rcases attached_next s e hp with hp | ⟨client,hmail⟩
    · exact hlt side o (h.attached_lt p side o hp)
    · exact hlt side o (h.mail_lt side client o hmail)
  · have hold := h.fresh side o ((hcreated side).trans ho)
    by_cases he : ∃ p op, e = .operate p op
    · obtain ⟨p,op,rfl⟩ := he
      refine ((operate_frame s p op side).2.2.2 o fun hp => ?_).trans hold
      have hbound := h.attached_lt p side o hp
      have hle := (hcreated side).trans ho
      omega
    · rw [memory_next h (fun p op heq => he ⟨p,op,heq⟩)]
      exact hold

theorem numbered_at (σ : Nat → Event) (k : Nat) : Numbered (systemAt σ k) :=
  stateAt_invariant (C := fun _ _ => True) (n := k)
    ⟨nofun,nofun,nofun,nofun,fun _ _ _ => rfl⟩ (fun _ _ => trivial) (fun _ e h _ => h.step e) k
    (Nat.le_refl k)

theorem created_mono (σ : Nat → Event) (side : Side) {i k : Nat} (hik : i ≤ k) :
    (systemAt σ i).created side ≤ (systemAt σ k).created side := by
  induction k, hik using Nat.le_induction with
  | base => exact Nat.le_refl _
  | succ k _ ih => exact ih.trans (memfd_next (systemAt σ k) (σ k) side).1

theorem held_since (σ : Nat → Event) {side : Side} {d o i j : Nat} (hij : i ≤ j)
    (hj : (systemAt σ j).memfd side d = some o) (hmade : o < (systemAt σ i).created side) :
    (systemAt σ i).memfd side d = some o ∧
      ∀ k, i ≤ k → k < j → ¬ Creating (systemAt σ k) (σ k) side d := by
  induction j, hij using Nat.le_induction with
  | base => exact ⟨hj,fun k hik hki => absurd hki (by omega)⟩
  | succ j hij ih =>
    rcases (memfd_next (systemAt σ j) (σ j) side).2 d o hj with ⟨hd,hno⟩ | ⟨_,ho,_⟩
    · obtain ⟨hi,hbefore⟩ := ih hd
      refine ⟨hi,fun k hik hkj => ?_⟩
      rcases Nat.lt_or_eq_of_le (Nat.lt_succ_iff.mp hkj) with hkj | rfl
      · exact hbefore k hik hkj
      · exact hno
    · have hmono := created_mono σ side hij
      omega

theorem held_until (σ : Nat → Event) {side : Side} {d o o' i j : Nat} (hij : i ≤ j)
    (hi : (systemAt σ i).memfd side d = some o) (hj : (systemAt σ j).memfd side d = some o')
    (hno : ∀ k, i ≤ k → k < j → ¬ Creating (systemAt σ k) (σ k) side d) : o = o' := by
  induction j, hij using Nat.le_induction with
  | base => exact Option.some.inj (hi.symm.trans hj)
  | succ j hij ih =>
    rcases (memfd_next (systemAt σ j) (σ j) side).2 d o' hj with ⟨hd,_⟩ | ⟨hc,_,_⟩
    · exact ih hd fun k hik hkj => hno k hik (by omega)
    · exact absurd hc (hno j hij (Nat.lt_succ_self j))

theorem attached_sent (σ : Nat → Event) (n : Nat) :
    (∀ side client o, ((systemAt σ n).fleets side).kernel.mail client = some o →
      ∃ i d, i < n ∧ Sends (systemAt σ i) (σ i) side d o) ∧
    ∀ p side o, (systemAt σ n).attached p side = some o →
      ∃ i d, i < n ∧ Sends (systemAt σ i) (σ i) side d o := by
  induction n with
  | zero => exact ⟨nofun,nofun⟩
  | succ n ih =>
    have hmail : ∀ side client o, ((systemAt σ n).fleets side).kernel.mail client = some o →
        ∃ i d, i < n+1 ∧ Sends (systemAt σ i) (σ i) side d o := by
      intro side client o h
      obtain ⟨i,d,hi,hsends⟩ := ih.1 side client o h
      exact ⟨i,d,Nat.lt_succ_of_lt hi,hsends⟩
    constructor
    · intro side client o h
      rcases mail_next (systemAt σ n) (σ n) h with h | ⟨d,hsends⟩
      · exact hmail side client o h
      · exact ⟨n,d,Nat.lt_succ_self n,hsends⟩
    · intro p side o h
      rcases attached_next (systemAt σ n) (σ n) h with h | ⟨client,h⟩
      · obtain ⟨i,d,hi,hsends⟩ := ih.2 p side o h
        exact ⟨i,d,Nat.lt_succ_of_lt hi,hsends⟩
      · exact hmail side client o h

/-- In every run what a process has attached was sent by a daemon that had it then, and what two
processes were sent, at `i` and then at `j`, is one memory just where the same daemon sent it and
has made no other memory between. -/
theorem memory_shared_iff (σ : Nat → Event) (n : Nat) (side : Side) :
    (∀ p o, (systemAt σ n).attached p side = some o →
      ∃ i d, i < n ∧ Sends (systemAt σ i) (σ i) side d o) ∧
    ∀ i j d d' o o', i ≤ j → Sends (systemAt σ i) (σ i) side d o →
      Sends (systemAt σ j) (σ j) side d' o' →
      (o = o' ↔ d = d' ∧ ∀ k, i ≤ k → k < j → ¬ Creating (systemAt σ k) (σ k) side d) := by
  refine ⟨fun p o h => (attached_sent σ n).2 p side o h,fun i j d d' o o' hij hsent hsent' => ?_⟩
  have hi := hsent.2.1
  have hj := hsent'.2.1
  constructor
  · rintro rfl
    obtain ⟨hi',hno⟩ := held_since σ hij hj ((numbered_at σ i).memfd_lt side d o hi)
    obtain rfl := (numbered_at σ i).injective side d d' o hi hi'
    exact ⟨rfl,hno⟩
  · rintro ⟨rfl,hno⟩
    exact held_until σ hij hi hj hno

end Memories

section OneRegistry
variable {s : System} {p q x : Nat}

def System.Has (s : System) (p q x : Nat) : Prop :=
  s.attached p .qm = some q ∧ s.attached p .asil = some x

instance (s : System) (p q x : Nat) : Decidable (s.Has p q x) :=
  inferInstanceAs (Decidable (_ ∧ _))

/-- What the processes with the memories `q` and `x` are answered, from the step `a` on. -/
def answered (σ : Nat → Event) (q x a : Nat) : Nat → List (Op × Reply)
  | 0 => []
  | m+1 =>
    match σ a with
    | .operate p op =>
      if (systemAt σ a).Has p q x then
        (op,(systemAt σ a).reply p op) :: answered σ q x (a+1) m
      else answered σ q x (a+1) m
    | _ => answered σ q x (a+1) m

/-- One registry gives these answers one after another. -/
def Explains (reg : SharedMemoryRegistry) : List (Op × Reply) → Prop
  | [] => True
  | (op,r) :: rest => r = (op.exec reg).1 ∧ Explains (next reg op) rest

def System.heldIn (s : System) (q x : Nat) : SharedMemoryRegistry :=
  mapped ((s.fleets .qm).kernel.memory q) ((s.fleets .asil).kernel.memory x)

theorem Has.registry (h : s.Has p q x) : s.registry p = s.heldIn q x := by
  rw [System.registry,h.1,h.2]
  rfl

theorem mapped_next (qm asil : Bank) (op : Op) :
    ∃ qm' asil', next (mapped qm asil) op = mapped qm' asil' := by
  rw [next,exec_mapped]
  by_cases h0 : op.serviceId.toNat%1024 = 0
  · exact ⟨qm,asil,by simp [h0]⟩
  · cases selectRegistry op.serviceId <;> simp [h0,mapped]

theorem Has.operate (h : s.Has p q x) (op : Op) :
    (s.operate p op).heldIn q x = next (s.heldIn q x) op := by
  have hwritten : ∀ (f : Fleet) (o : Nat) (bank : Bank),
      (f.written (some o) ⟨some bank⟩).kernel.memory o = bank :=
    fun f o bank => Function.update_self (β := fun _ => Bank) o bank f.kernel.memory
  have hnext := mapped_next ((s.fleets .qm).kernel.memory q) ((s.fleets .asil).kernel.memory x) op
  obtain ⟨qm,asil,hnext⟩ := hnext
  have hreg : next (s.registry p) op = mapped qm asil := by
    rw [Has.registry h]
    exact hnext
  rw [System.heldIn,System.operate,hreg]
  show mapped (((s.fleets .qm).written (s.attached p .qm) ⟨some qm⟩).kernel.memory q)
    (((s.fleets .asil).written (s.attached p .asil) ⟨some asil⟩).kernel.memory x) = _
  rw [h.1,h.2,hwritten,hwritten]
  exact hnext.symm

theorem heldIn_operate (hqm : s.attached p .qm ≠ some q) (hasil : s.attached p .asil ≠ some x)
    (op : Op) : (s.operate p op).heldIn q x = s.heldIn q x := by
  rw [System.heldIn,(operate_frame s p op .qm).2.2.2 q hqm,
    (operate_frame s p op .asil).2.2.2 x hasil]
  rfl

/-- Over every run, where each process that operates has both of two memories or neither, those that
have them are answered as one registry would answer them in turn, whatever the daemons, the other
processes and the attachments do meanwhile. -/
theorem one_registry (σ : Nat → Event) (q x a m : Nat)
    (h : ∀ k, a ≤ k → k < a+m → ∀ p op, σ k = .operate p op →
      ((systemAt σ k).attached p .qm = some q ↔ (systemAt σ k).attached p .asil = some x)) :
    Explains ((systemAt σ a).heldIn q x) (answered σ q x a m) := by
  induction m generalizing a with
  | zero => trivial
  | succ m ih =>
    have hrest := ih (a+1) fun k hk hkm => h k (by omega) (by omega)
    have hquiet : (∀ p op, σ a ≠ .operate p op) →
        (systemAt σ (a+1)).heldIn q x = (systemAt σ a).heldIn q x := by
      intro he
      rw [System.heldIn,systemAt,stateAt_succ,memory_next (numbered_at σ a) he,
        memory_next (numbered_at σ a) he]
      rfl
    rw [answered]
    cases he : σ a with
    | operate p op =>
      have hsucc : systemAt σ (a+1) = (systemAt σ a).operate p op := by
        rw [systemAt,stateAt_succ,he]
        rfl
      have hboth := h a (Nat.le_refl a) (by omega) p op he
      rw [hsucc] at hrest
      by_cases hhas : (systemAt σ a).Has p q x
      · simp only [if_pos hhas]
        rw [Has.operate hhas] at hrest
        exact ⟨by rw [System.reply,Has.registry hhas],hrest⟩
      · have hqm : (systemAt σ a).attached p .qm ≠ some q := fun hqm => hhas ⟨hqm,hboth.mp hqm⟩
        have hasil : (systemAt σ a).attached p .asil ≠ some x := fun hasil =>
          hhas ⟨hboth.mpr hasil,hasil⟩
        simp only [if_neg hhas]
        rwa [heldIn_operate hqm hasil] at hrest
    | daemon side d e => rwa [hquiet (by simp [he])] at hrest
    | receive p side client => rwa [hquiet (by simp [he])] at hrest
    | detach p => rwa [hquiet (by simp [he])] at hrest

def twoClients (side : Side) : List Event :=
  [.daemon side 0 (.initializeRegistry ⟨true,true,true⟩),.daemon side 0 (.run ⟨true,true,true⟩)]++
    List.replicate 8 (.daemon side 0 (.serve .done))

def neighbours : Nat → Event :=
  schedule (twoClients .qm++twoClients .asil++
    [.receive 1 .qm 0,.receive 1 .asil 0,.receive 2 .qm 1,.receive 2 .asil 1,
      .operate 1 (.registerService (plainRegistration 5 1)),.operate 2 (.findService 5)])
    (.detach 0)

theorem one_registry_neighbours :
    (∀ p, p = 1 ∨ p = 2 → (systemAt neighbours 24).Has p 0 0) ∧
      Explains ((systemAt neighbours 24).heldIn 0 0) (answered neighbours 0 0 24 2) := by
  refine ⟨by rintro p (rfl | rfl) <;> decide +kernel,one_registry neighbours 0 0 24 2 ?_⟩
  intro k hk hkm p op he
  obtain rfl | rfl : k = 24 ∨ k = 25 := by omega
  · obtain ⟨rfl,_⟩ : 1 = p ∧ _ := Event.operate.inj he
    decide +kernel
  · obtain ⟨rfl,_⟩ : 2 = p ∧ _ := Event.operate.inj he
    decide +kernel

end OneRegistry

end LapCom.Processes
