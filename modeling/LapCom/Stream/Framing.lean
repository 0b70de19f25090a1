import LapCom.Stream.Reader
import Mathlib.Algebra.Order.BigOperators.Group.List

set_option autoImplicit false

namespace LapCom.Stream

variable {α σ : Type*}

/-- Frames of a header of `width` units, which gives the length of the body behind it.
Bodies of length 0 or above `limit` are not read. -/
structure Format (α : Type*) where
  width : Nat
  width_pos : 0 < width
  length : List α → Nat
  limit : Nat

/-- Where a reader of frames stands. `size` counts the header. -/
inductive Reading (α : Type*) where
  | header
  | body (buf : List α) (size : Nat) (h : buf.length < size)

inductive Received (α : Type*) where
  | more
  | short
  | refused
  | frame (buf : List α)

def Reading.asks (f : Format α) : Reading α → Nat
  | .header => f.width
  | .body buf size _ => size-buf.length

theorem Reading.asks_pos (f : Format α) (p : Reading α) : 0 < p.asks f := by
  cases p with
  | header => exact f.width_pos
  | body buf size h => exact Nat.sub_pos_of_lt h

/-- The header comes from a single call, the body from as many as it needs. -/
def Reading.receive (f : Format α) : Reading α → List α → Reading α × Received α
  | .header,data =>
    if hw : data.length = f.width then
      if hl : f.length data = 0 ∨ f.limit < f.length data then (.header,.refused)
      else (.body data (f.length data+f.width) (by omega),.more)
    else (.header,.short)
  | .body buf size _,data =>
    if h : (buf++data).length < size then (.body (buf++data) size h,.more)
    else (.header,.frame (buf++data))

section Receive
variable {f : Format α} {data : List α}

theorem Reading.receive_short (h : data.length ≠ f.width) :
    Reading.header.receive f data = (.header,.short) :=
  dif_neg h

theorem Reading.receive_refused (hw : data.length = f.width)
    (hl : f.length data = 0 ∨ f.limit < f.length data) :
    Reading.header.receive f data = (.header,.refused) :=
  (dif_pos hw).trans (dif_pos hl)

theorem Reading.receive_header (hw : data.length = f.width)
    (hl : ¬ (f.length data = 0 ∨ f.limit < f.length data)) :
    Reading.header.receive f data = (.body data (f.length data+f.width) (by omega),.more) :=
  (dif_pos hw).trans (dif_neg hl)

variable {buf : List α} {size : Nat} {hb : buf.length < size}

theorem Reading.receive_body (h : (buf++data).length < size) :
    (Reading.body buf size hb).receive f data = (.body (buf++data) size h,.more) :=
  dif_pos h

theorem Reading.receive_last (h : ¬ (buf++data).length < size) :
    (Reading.body buf size hb).receive f data = (.header,.frame (buf++data)) :=
  dif_neg h

end Receive

def Reading.next (f : Format α) : Nat → Reading α → Reader α → Option (Received α × Reader α)
  | 0,_,_ => none
  | fuel+1,p,r =>
    match r.read (p.asks f) with
    | none => none
    | some (data,r) =>
      match p.receive f data with
      | (p,.more) => p.next f fuel r
      | (_,received) => some (received,r)

/-- A reader of frames that goes on after each of them; `state` is what the frames made. -/
structure Loop (α σ : Type*) where
  reading : Reading α
  state : σ

section Loop
variable (f : Format α) (onFrame : σ → List α → σ)

def Loop.asks (l : Loop α σ) : Nat := l.reading.asks f

def Loop.receive (l : Loop α σ) (data : List α) : Loop α σ :=
  match l.reading.receive f data with
  | (p,.frame buf) => ⟨p,onFrame l.state buf⟩
  | (p,_) => ⟨p,l.state⟩

def Loop.drain (l : Loop α σ) (r : Reader α) : Loop α σ :=
  Stream.drain (Loop.asks f) (Loop.receive f onFrame) l r

variable {f onFrame}

theorem Loop.asks_pos (l : Loop α σ) : 0 < l.asks f := l.reading.asks_pos f

theorem Loop.drain_nil {r : Reader α} (h : r.input = []) (l : Loop α σ) :
    l.drain f onFrame r = l :=
  Stream.drain_nil h l

theorem Loop.drain_read {r : Reader α} (h : r.input ≠ []) (l : Loop α σ) :
    l.drain f onFrame r =
      (l.receive f onFrame (r.input.take (stop r.cut (l.asks f)))).drain f onFrame
        (r.skip (stop r.cut (l.asks f))) :=
  Stream.drain_read Loop.asks_pos h l

theorem Loop.receive_short {s : σ} {data : List α} (h : data.length ≠ f.width) :
    (⟨.header,s⟩ : Loop α σ).receive f onFrame data = ⟨.header,s⟩ := by
  simp only [receive,Reading.receive_short h]

theorem Loop.receive_refused {s : σ} {data : List α} (hw : data.length = f.width)
    (hl : f.length data = 0 ∨ f.limit < f.length data) :
    (⟨.header,s⟩ : Loop α σ).receive f onFrame data = ⟨.header,s⟩ := by
  simp only [receive,Reading.receive_refused hw hl]

theorem Loop.receive_header {s : σ} {data : List α} (hw : data.length = f.width)
    (hl : ¬ (f.length data = 0 ∨ f.limit < f.length data)) :
    (⟨.header,s⟩ : Loop α σ).receive f onFrame data =
      ⟨.body data (f.length data+f.width) (by omega),s⟩ := by
  rw [receive,Reading.receive_header hw hl]

theorem Loop.receive_body {s : σ} {buf data : List α} {size : Nat} {hb : buf.length < size}
    (h : (buf++data).length < size) :
    (⟨.body buf size hb,s⟩ : Loop α σ).receive f onFrame data = ⟨.body (buf++data) size h,s⟩ := by
  simp only [receive,Reading.receive_body h]

theorem Loop.receive_last {s : σ} {buf data : List α} {size : Nat} {hb : buf.length < size}
    (h : ¬ (buf++data).length < size) :
    (⟨.body buf size hb,s⟩ : Loop α σ).receive f onFrame data =
      ⟨.header,onFrame s (buf++data)⟩ := by
  simp only [receive,Reading.receive_last h]

theorem Loop.receive_invariant {I : σ → Prop} (hI : ∀ s buf, I s → I (onFrame s buf))
    {l : Loop α σ} (h : I l.state) (data : List α) : I (l.receive f onFrame data).state := by
  rw [receive]
  split
  · exact hI _ _ h
  · exact h

theorem Loop.drain_invariant {I : σ → Prop} (hI : ∀ s buf, I s → I (onFrame s buf))
    {l : Loop α σ} (h : I l.state) (r : Reader α) : I (l.drain f onFrame r).state := by
  induction hn : r.input.length using Nat.strongRecOn generalizing l r with
  | _ n ih =>
    by_cases hnil : r.input = []
    · rw [drain_nil hnil]
      exact h
    · have hlen : 0 < r.input.length := List.length_pos_iff.mpr hnil
      have hpos := stop_pos r.cut (l.asks_pos (f := f))
      rw [drain_read hnil]
      have hskip : (r.skip (stop r.cut (l.asks f))).input.length < n := by
        rw [Reader.skip_input,List.length_drop]
        omega
      exact ih _ hskip (receive_invariant hI h _) _ rfl

/-- A body that is on its way whole is read whole, however the calls divide it. -/
theorem Loop.drain_body {s : σ} {buf : List α} {size : Nat} {hb : buf.length < size}
    {r : Reader α} (hr : size ≤ buf.length+r.input.length) :
    (⟨.body buf size hb,s⟩ : Loop α σ).drain f onFrame r =
      (⟨.header,onFrame s (buf++r.input.take (size-buf.length))⟩ : Loop α σ).drain f onFrame
        (r.skip (size-buf.length)) := by
  induction hn : size-buf.length using Nat.strongRecOn generalizing buf r with
  | _ n ih =>
    have hne : r.input ≠ [] := by
      rintro h
      rw [h,List.length_nil] at hr
      omega
    have hpos := stop_pos r.cut (show 0 < n by omega)
    have hle := stop_le r.cut n
    have htake : (r.input.take (stop r.cut n)).length = stop r.cut n := by
      rw [List.length_take]
      omega
    rw [drain_read hne]
    simp only [asks,Reading.asks,hn]
    by_cases hlast : stop r.cut n = n
    · rw [receive_last (by rw [List.length_append,htake]; omega),hlast]
    · have hlt : (buf++r.input.take (stop r.cut n)).length < size := by
        rw [List.length_append,htake]
        omega
      have hrest : size-(buf++r.input.take (stop r.cut n)).length = n-stop r.cut n := by
        rw [List.length_append,htake]
        omega
      rw [receive_body hlt,ih _ (by omega) _ hrest]
      · rw [Reader.skip_skip,Nat.add_sub_cancel' hle,List.append_assoc,Reader.skip_input,
          ← List.take_add,Nat.add_sub_cancel' hle]
      · rw [List.length_append,htake,Reader.skip_input,List.length_drop]
        omega

theorem Loop.drain_waits {s : σ} {buf : List α} {size : Nat} {hb : buf.length < size}
    {r : Reader α} (hr : buf.length+r.input.length < size) :
    ((⟨.body buf size hb,s⟩ : Loop α σ).drain f onFrame r).state = s := by
  induction hn : r.input.length using Nat.strongRecOn generalizing buf r with
  | _ n ih =>
    by_cases hnil : r.input = []
    · rw [drain_nil hnil]
    · have hlen : 0 < r.input.length := List.length_pos_iff.mpr hnil
      have hpos := stop_pos r.cut (show 0 < size-buf.length by omega)
      have hlt : (buf++r.input.take (stop r.cut (size-buf.length))).length < size := by
        rw [List.length_append,List.length_take]
        omega
      have hskip : (r.skip (stop r.cut (size-buf.length))).input.length < n := by
        rw [Reader.skip_input,List.length_drop]
        omega
      rw [drain_read hnil]
      simp only [asks,Reading.asks]
      rw [receive_body hlt]
      apply ih _ hskip _ rfl
      rw [List.length_append,List.length_take,Reader.skip_input,List.length_drop]
      omega

end Loop

/-- A header and the body it announces. -/
structure Frame (f : Format α) where
  header : List α
  body : List α
  header_length : header.length = f.width
  length_header : f.length header = body.length

def Frame.bytes {f : Format α} (fr : Frame f) : List α := fr.header++fr.body

theorem Frame.bytes_length {f : Format α} (fr : Frame f) :
    fr.bytes.length = f.width+fr.body.length := by
  rw [bytes,List.length_append,fr.header_length]

def stream {f : Format α} (frames : List (Frame f)) : List α := (frames.map Frame.bytes).flatten

/-- No call for a header ends inside it, in a stream of frames of these sizes. -/
def WholeHeaders (width : Nat) : (Nat → Bool) → List Nat → Prop
  | _,[] => True
  | cut,n :: sizes => stop cut width = width ∧ WholeHeaders width (fun k => cut (k+n)) sizes

def sizes {f : Format α} (frames : List (Frame f)) : List Nat :=
  frames.map fun fr => f.width+fr.body.length

def Frame.Read {f : Format α} (fr : Frame f) : Prop := fr.body ≠ [] ∧ fr.body.length ≤ f.limit

instance {f : Format α} : DecidablePred (Frame.Read (f := f)) :=
  fun fr => inferInstanceAs (Decidable (¬ fr.body = [] ∧ fr.body.length ≤ f.limit))

theorem stream_cons {f : Format α} (fr : Frame f) (frames : List (Frame f)) :
    stream (fr :: frames) = fr.bytes++stream frames := rfl

section Frames
variable {f : Format α} {onFrame : σ → List α → σ}

theorem Frame.bytes_ne_nil (fr : Frame f) (rest : List α) : fr.bytes++rest ≠ [] := by
  intro h
  have hlen := congrArg List.length h
  rw [List.length_append,bytes_length,List.length_nil] at hlen
  have := f.width_pos
  omega

theorem Frame.take_header (fr : Frame f) (rest : List α) :
    (fr.bytes++rest).take f.width = fr.header := by
  rw [bytes,List.append_assoc,← fr.header_length,List.take_left]

theorem Frame.drop_header (fr : Frame f) (rest : List α) :
    (fr.bytes++rest).drop f.width = fr.body++rest := by
  rw [bytes,List.append_assoc,← fr.header_length,List.drop_left]

theorem Loop.drain_header {s : σ} {fr : Frame f} {rest : List α} {cut : Nat → Bool}
    (hwhole : stop cut f.width = f.width) :
    (⟨.header,s⟩ : Loop α σ).drain f onFrame ⟨fr.bytes++rest,cut⟩ =
      ((⟨.header,s⟩ : Loop α σ).receive f onFrame fr.header).drain f onFrame
        ⟨fr.body++rest,fun k => cut (k+f.width)⟩ := by
  rw [drain_read (fr.bytes_ne_nil rest)]
  simp only [asks,Reading.asks,Reader.skip]
  rw [hwhole,fr.take_header,fr.drop_header]

theorem Loop.drain_frame {s : σ} {fr : Frame f} {rest : List α} {cut : Nat → Bool}
    (hwhole : stop cut f.width = f.width) (hread : fr.Read) :
    (⟨.header,s⟩ : Loop α σ).drain f onFrame ⟨fr.bytes++rest,cut⟩ =
      (⟨.header,onFrame s fr.bytes⟩ : Loop α σ).drain f onFrame
        ⟨rest,fun k => cut (k+(f.width+fr.body.length))⟩ := by
  have hpos : 0 < fr.body.length := List.length_pos_iff.mpr hread.1
  have hlimit := hread.2
  have hsize : f.length fr.header+f.width-fr.header.length = fr.body.length := by
    rw [fr.length_header,fr.header_length,Nat.add_sub_cancel]
  rw [drain_header hwhole,
    receive_header fr.header_length (by rw [fr.length_header]; omega),drain_body,hsize]
  · rw [List.take_left,Reader.skip_append]
    simp only [Nat.add_assoc,Nat.add_comm fr.body.length,Frame.bytes]
  · rw [List.length_append]
    omega

theorem Loop.drain_empty {s : σ} {fr : Frame f} {rest : List α} {cut : Nat → Bool}
    (hwhole : stop cut f.width = f.width) (hbody : fr.body = []) :
    (⟨.header,s⟩ : Loop α σ).drain f onFrame ⟨fr.bytes++rest,cut⟩ =
      (⟨.header,s⟩ : Loop α σ).drain f onFrame
        ⟨rest,fun k => cut (k+(f.width+fr.body.length))⟩ := by
  have hlen : f.length fr.header = 0 := by rw [fr.length_header,hbody,List.length_nil]
  rw [drain_header hwhole,receive_refused fr.header_length (.inl hlen),hbody]
  rfl

/-- A frame that is too long is not passed over: its body is read as more frames. -/
theorem Loop.drain_oversize {s : σ} {fr : Frame f} {rest : List α} {cut : Nat → Bool}
    (hwhole : stop cut f.width = f.width) (hlimit : f.limit < fr.body.length) :
    (⟨.header,s⟩ : Loop α σ).drain f onFrame ⟨fr.bytes++rest,cut⟩ =
      (⟨.header,s⟩ : Loop α σ).drain f onFrame ⟨fr.body++rest,fun k => cut (k+f.width)⟩ := by
  rw [← fr.length_header] at hlimit
  rw [drain_header hwhole,receive_refused fr.header_length (.inr hlimit)]

theorem Loop.drain_stream {s : σ} {frames : List (Frame f)} {cut : Nat → Bool}
    (hwhole : WholeHeaders f.width cut (sizes frames))
    (hlimit : ∀ fr, fr ∈ frames → fr.body.length ≤ f.limit) :
    (⟨.header,s⟩ : Loop α σ).drain f onFrame ⟨stream frames,cut⟩ =
      ⟨.header,((frames.filter fun fr => decide fr.Read).map Frame.bytes).foldl onFrame s⟩ := by
  induction frames generalizing s cut with
  | nil => exact drain_nil rfl _
  | cons fr frames ih =>
    have hrest := fun fr h => hlimit fr (List.mem_cons_of_mem _ h)
    rw [stream_cons]
    by_cases hbody : fr.body = []
    · have hread : ¬ fr.Read := fun h => h.1 hbody
      rw [drain_empty hwhole.1 hbody,ih hwhole.2 hrest,
        List.filter_cons_of_neg (by simpa using hread)]
    · have hread : fr.Read := ⟨hbody,hlimit fr List.mem_cons_self⟩
      rw [drain_frame hwhole.1 hread,ih hwhole.2 hrest,
        List.filter_cons_of_pos (by simpa using hread)]
      rfl

theorem Reading.next_read {p : Reading α} {r : Reader α} {fuel : Nat} (hne : r.input ≠ []) :
    p.next f (fuel+1) r =
      match p.receive f (r.input.take (stop r.cut (p.asks f))) with
      | (p',.more) => p'.next f fuel (r.skip (stop r.cut (p.asks f)))
      | (_,received) => some (received,r.skip (stop r.cut (p.asks f))) := by
  rw [next,Reader.read_of_ne_nil hne]

theorem Reading.next_body {buf : List α} {size : Nat} {hb : buf.length < size} {r : Reader α}
    {fuel : Nat} (hr : size ≤ buf.length+r.input.length) (hfuel : size-buf.length ≤ fuel) :
    (Reading.body buf size hb).next f fuel r =
      some (.frame (buf++r.input.take (size-buf.length)),r.skip (size-buf.length)) := by
  induction fuel generalizing buf r with
  | zero => omega
  | succ fuel ih =>
    have hne : r.input ≠ [] := by
      intro h
      rw [h,List.length_nil] at hr
      omega
    have hpos := stop_pos r.cut (show 0 < size-buf.length by omega)
    have hle := stop_le r.cut (size-buf.length)
    have htake : (r.input.take (stop r.cut (size-buf.length))).length =
        stop r.cut (size-buf.length) := by
      rw [List.length_take]
      omega
    rw [next_read hne]
    simp only [asks]
    by_cases hlast : stop r.cut (size-buf.length) = size-buf.length
    · rw [receive_last (by rw [List.length_append,htake]; omega),hlast]
    · have hlt : (buf++r.input.take (stop r.cut (size-buf.length))).length < size := by
        rw [List.length_append,htake]
        omega
      have hrest : size-(buf++r.input.take (stop r.cut (size-buf.length))).length =
          size-buf.length-stop r.cut (size-buf.length) := by
        rw [List.length_append,htake]
        omega
      rw [receive_body hlt]
      simp only
      rw [ih (by rw [List.length_append,htake,Reader.skip_input,List.length_drop]; omega)
        (by omega),hrest,Reader.skip_skip,Nat.add_sub_cancel' hle,List.append_assoc,
        Reader.skip_input,← List.take_add,Nat.add_sub_cancel' hle]

/-- The next frame is received if no call for its header ends inside it. -/
theorem Reading.next_frame {fr : Frame f} {rest : List α} {cut : Nat → Bool} {fuel : Nat}
    (hwhole : stop cut f.width = f.width) (hread : fr.Read) (hfuel : fr.body.length < fuel) :
    Reading.header.next f fuel ⟨fr.bytes++rest,cut⟩ =
      some (.frame fr.bytes,⟨rest,fun k => cut (k+(f.width+fr.body.length))⟩) := by
  have hpos : 0 < fr.body.length := List.length_pos_iff.mpr hread.1
  have hlimit := hread.2
  have hsize : f.length fr.header+f.width-fr.header.length = fr.body.length := by
    rw [fr.length_header,fr.header_length,Nat.add_sub_cancel]
  have hl : ¬ (f.length fr.header = 0 ∨ f.limit < f.length fr.header) := by
    rw [fr.length_header]
    omega
  have hne : (⟨fr.bytes++rest,cut⟩ : Reader α).input ≠ [] := fr.bytes_ne_nil rest
  obtain ⟨fuel,rfl⟩ : ∃ n, fuel = n+1 := ⟨fuel-1,by omega⟩
  rw [next_read hne]
  simp only [asks]
  rw [hwhole,fr.take_header,receive_header fr.header_length hl]
  simp only [Reader.skip,fr.drop_header]
  rw [next_body,hsize]
  · simp only [List.take_left]
    rw [Reader.skip_append]
    simp only [Nat.add_assoc,Nat.add_comm fr.body.length,Frame.bytes]
  · simp only [List.length_append]
    rw [fr.length_header,fr.header_length]
    omega
  · rw [hsize]
    omega

theorem Reading.next_short {r : Reader α} {fuel : Nat} (hfuel : 0 < fuel) (hne : r.input ≠ [])
    (hcut : stop r.cut f.width ≠ f.width) :
    Reading.header.next f fuel r = some (.short,r.skip (stop r.cut f.width)) := by
  have hle := stop_le r.cut f.width
  obtain ⟨fuel,rfl⟩ : ∃ n, fuel = n+1 := ⟨fuel-1,by omega⟩
  rw [next_read hne]
  simp only [asks]
  rw [receive_short (by rw [List.length_take]; omega)]

/-! What a loop makes of its input weighs no more than the input. -/

def Loop.held (l : Loop α σ) : Nat :=
  match l.reading with
  | .header => 0
  | .body buf _ _ => buf.length

theorem Loop.weight_receive (weigh : σ → Nat)
    (hweigh : ∀ s buf, weigh (onFrame s buf) ≤ weigh s+buf.length) (l : Loop α σ) (data : List α) :
    weigh (l.receive f onFrame data).state+(l.receive f onFrame data).held ≤
      weigh l.state+l.held+data.length := by
  obtain ⟨p,s⟩ := l
  cases p with
  | header =>
    by_cases hw : data.length = f.width
    · by_cases hl : f.length data = 0 ∨ f.limit < f.length data
      · rw [receive_refused hw hl]
        exact Nat.le_add_right _ _
      · rw [receive_header hw hl]
        exact Nat.le_refl _
    · rw [receive_short hw]
      exact Nat.le_add_right _ _
  | body buf size hb =>
    by_cases h : (buf++data).length < size
    · rw [receive_body h]
      simp only [held,List.length_append]
      omega
    · have := hweigh s (buf++data)
      rw [receive_last h]
      simp only [held,List.length_append] at this ⊢
      omega

theorem Loop.weight_drain (weigh : σ → Nat)
    (hweigh : ∀ s buf, weigh (onFrame s buf) ≤ weigh s+buf.length) (l : Loop α σ) (r : Reader α) :
    weigh (l.drain f onFrame r).state ≤ weigh l.state+l.held+r.input.length := by
  induction hn : r.input.length using Nat.strongRecOn generalizing l r with
  | _ n ih =>
    by_cases hnil : r.input = []
    · rw [drain_nil hnil]
      omega
    · have hlen : 0 < r.input.length := List.length_pos_iff.mpr hnil
      have hpos := stop_pos r.cut (l.asks_pos (f := f))
      have hstep := weight_receive (f := f) weigh hweigh l (r.input.take (stop r.cut (l.asks f)))
      have hrest := ih _ (by rw [Reader.skip_input,List.length_drop]; omega)
        (l.receive f onFrame (r.input.take (stop r.cut (l.asks f))))
        (r.skip (stop r.cut (l.asks f))) rfl
      rw [drain_read hnil]
      rw [Reader.skip_input,List.length_drop] at hrest
      rw [List.length_take] at hstep
      omega

/-- Where the frames weigh no less than their bytes after all, no header was cut and no
frame was passed over. -/
theorem Loop.whole_of_weight (weigh : σ → Nat)
    (hweigh : ∀ s buf, weigh (onFrame s buf) ≤ weigh s+buf.length) {s : σ}
    {frames : List (Frame f)} {cut : Nat → Bool}
    (hlimit : ∀ fr, fr ∈ frames → fr.body.length ≤ f.limit)
    (h : weigh s+(stream frames).length ≤
      weigh ((⟨.header,s⟩ : Loop α σ).drain f onFrame ⟨stream frames,cut⟩).state) :
    WholeHeaders f.width cut (sizes frames) ∧ ∀ fr, fr ∈ frames → fr.body ≠ [] := by
  induction frames generalizing s cut with
  | nil => exact ⟨trivial,by simp⟩
  | cons fr frames ih =>
    have hfr := fr.bytes_length
    have hwidth := f.width_pos
    rw [stream_cons,List.length_append] at h
    have hwhole : stop cut f.width = f.width := by
      by_contra hcut
      have hle := stop_le cut f.width
      have hpos := stop_pos cut f.width_pos
      have htake : ((fr.bytes++stream frames).take (stop cut f.width)).length ≠ f.width := by
        intro heq
        apply hcut
        rw [List.length_take,List.length_append] at heq
        omega
      rw [drain_read (fr.bytes_ne_nil _)] at h
      simp only [asks,Reading.asks] at h
      rw [receive_short htake] at h
      have hbound := weight_drain (f := f) weigh hweigh ⟨.header,s⟩
        ((⟨fr.bytes++stream frames,cut⟩ : Reader α).skip (stop cut f.width))
      rw [Reader.skip_input,List.length_drop,List.length_append] at hbound
      simp only [held] at hbound
      omega
    have hbody : fr.body ≠ [] := by
      intro hnil
      rw [drain_empty hwhole hnil] at h
      have hbound := weight_drain (f := f) weigh hweigh ⟨.header,s⟩
        ⟨stream frames,fun k => cut (k+(f.width+fr.body.length))⟩
      simp only [held] at hbound
      omega
    rw [drain_frame hwhole ⟨hbody,hlimit fr List.mem_cons_self⟩] at h
    have hstep := hweigh s fr.bytes
    obtain ⟨hcuts,hbodies⟩ := ih (fun fr hm => hlimit fr (List.mem_cons_of_mem _ hm))
      (Nat.le_trans (by omega) h)
    refine ⟨⟨hwhole,hcuts⟩,?_⟩
    intro fr' hm
    cases List.mem_cons.mp hm with
    | inl heq => exact heq ▸ hbody
    | inr hm => exact hbodies fr' hm

end Frames

end LapCom.Stream
