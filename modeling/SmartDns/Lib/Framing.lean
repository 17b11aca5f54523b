import SmartDns.Lib.Numeral
set_option autoImplicit false

/-!
Payloads in a stream of bytes, each behind its length in a fixed number of bytes. A stream is
whole frames and a rest that is no whole frame, in one way only.
-/

namespace Framing

abbrev Bytes := List UInt8

/-- `n.to_bytes(width, "big")`, where `n` fits. -/
def toBytes (width n : ℕ) : Bytes := (Numeral.toWords 256 width n).map UInt8.ofNat

/-- `int.from_bytes(bytes, "big")`. -/
def fromBytes (bytes : Bytes) : ℕ := Numeral.ofWords 256 (bytes.map UInt8.toNat)

@[simp] theorem length_toBytes (width n : ℕ) : (toBytes width n).length = width := by
  simp [toBytes]

theorem fromBytes_toBytes {width n : ℕ} (h : n < 256^width) :
    fromBytes (toBytes width n) = n := by
  have hwords : ((Numeral.toWords 256 width n).map UInt8.ofNat).map UInt8.toNat =
      Numeral.toWords 256 width n := by
    rw [List.map_map]
    refine (List.map_congr_left fun word hword => ?_).trans (List.map_id _)
    have hlt := Numeral.toWords_lt (by decide) hword
    simp only [Function.comp,UInt8.toNat_ofNat',id]
    omega
  rw [fromBytes,toBytes,hwords,Numeral.ofWords_toWords h]

theorem fromBytes_concat (bytes : Bytes) (b : UInt8) :
    fromBytes (bytes ++ [b]) = fromBytes bytes*256+b.toNat := by
  simp [fromBytes,Numeral.ofWords_snoc]

theorem toBytes_fromBytes (bytes : Bytes) : toBytes bytes.length (fromBytes bytes) = bytes := by
  induction bytes using List.reverseRecOn with
  | nil => rfl
  | append_singleton bytes b ih =>
    have hb := b.toNat_lt
    have hhigh : (fromBytes bytes*256+b.toNat)/256 = fromBytes bytes := by omega
    have hlow : (fromBytes bytes*256+b.toNat)%256 = b.toNat := by omega
    rw [fromBytes_concat,List.length_append,List.length_singleton,toBytes,Numeral.toWords,hhigh,
      hlow,List.map_append]
    simpa [toBytes] using ih

theorem fromBytes_lt (bytes : Bytes) : fromBytes bytes < 256^bytes.length := by
  induction bytes using List.reverseRecOn with
  | nil => decide
  | append_singleton bytes b ih =>
    have hb := b.toNat_lt
    rw [fromBytes_concat,List.length_append,List.length_singleton,Nat.pow_succ]
    omega

/-! ### Frames -/

variable {width : ℕ}

/-- The payload's length can be written. -/
def Framable (width : ℕ) (payload : Bytes) : Prop := payload.length < 256^width

instance (width : ℕ) (payload : Bytes) : Decidable (Framable width payload) :=
  inferInstanceAs (Decidable (_ < _))

def frame (width : ℕ) (payload : Bytes) : Bytes := toBytes width payload.length ++ payload

def framed (width : ℕ) (payloads : List Bytes) : Bytes := payloads.flatMap (frame width)

/-- The payload of the first frame, and what is behind it. -/
def next (width : ℕ) (bytes : Bytes) : Option (Bytes × Bytes) :=
  if width+fromBytes (bytes.take width) ≤ bytes.length then
    some ((bytes.drop width).take (fromBytes (bytes.take width)),
      bytes.drop (width+fromBytes (bytes.take width)))
  else none

@[simp] theorem framed_nil : framed width [] = [] := rfl

theorem framed_cons (payload : Bytes) (payloads : List Bytes) :
    framed width (payload :: payloads) = frame width payload ++ framed width payloads := rfl

theorem framed_append (front back : List Bytes) :
    framed width (front ++ back) = framed width front ++ framed width back :=
  List.flatMap_append

theorem framed_singleton (payload : Bytes) : framed width [payload] = frame width payload :=
  List.append_nil _

theorem length_frame (payload : Bytes) : (frame width payload).length = width+payload.length := by
  simp [frame]

theorem next_frame {payload : Bytes} (h : Framable width payload) (rest : Bytes) :
    next width (frame width payload ++ rest) = some (payload,rest) := by
  have htake : (frame width payload ++ rest).take width = toBytes width payload.length := by
    rw [frame,List.append_assoc]
    exact List.take_left' (length_toBytes width _)
  have hdrop : (frame width payload ++ rest).drop width = payload ++ rest := by
    rw [frame,List.append_assoc]
    exact List.drop_left' (length_toBytes width _)
  unfold next
  rw [htake,fromBytes_toBytes h,← List.drop_drop,hdrop,if_pos (by simp [frame])]
  simp

theorem next_some {bytes payload rest : Bytes} (h : next width bytes = some (payload,rest)) :
    bytes = frame width payload ++ rest ∧ Framable width payload := by
  unfold next at h
  split at h
  · rename_i hlength
    have hhead : (bytes.take width).length = width := List.length_take_of_le (by omega)
    have hpayload : ((bytes.drop width).take (fromBytes (bytes.take width))).length =
        fromBytes (bytes.take width) := List.length_take_of_le (by simp; omega)
    have hback := toBytes_fromBytes (bytes.take width)
    rw [hhead] at hback
    cases h
    constructor
    · rw [frame,hpayload,hback,List.append_assoc,← List.drop_drop,List.take_append_drop,
        List.take_append_drop]
    · have hlt := fromBytes_lt (bytes.take width)
      rw [hhead] at hlt
      rwa [Framable,hpayload]
  · cases h

/-! ### All whole frames -/

/-- There is no whole frame. -/
def Incomplete (width : ℕ) (bytes : Bytes) : Prop := next width bytes = none

theorem incomplete_iff {bytes : Bytes} :
    Incomplete width bytes ↔ bytes.length < width+fromBytes (bytes.take width) := by
  unfold Incomplete next
  split
  · simp; omega
  · simp; omega

/-- The payloads of the first frames, of which there are no more than the fuel. -/
def framesFrom (width : ℕ) : ℕ → Bytes → List Bytes
  | 0,_ => []
  | fuel+1,bytes =>
    match next width bytes with
    | none => []
    | some (payload,rest) => payload :: framesFrom width fuel rest

/-- A frame has at least one byte. -/
def frames (width : ℕ) (bytes : Bytes) : List Bytes := framesFrom width bytes.length bytes

theorem framesFrom_framed {payloads : List Bytes}
    (hfits : ∀ payload ∈ payloads, Framable width payload)
    {rest : Bytes} (hrest : Incomplete width rest) {fuel : ℕ} (hfuel : payloads.length ≤ fuel) :
    framesFrom width fuel (framed width payloads ++ rest) = payloads := by
  induction payloads generalizing fuel with
  | nil =>
    cases fuel with
    | zero => rfl
    | succ fuel =>
      simp only [framed_nil,List.nil_append,framesFrom]
      rw [hrest]
  | cons payload payloads ih =>
    obtain ⟨hfirst,hothers⟩ := List.forall_mem_cons.mp hfits
    cases fuel with
    | zero => simp at hfuel
    | succ fuel =>
      simp only [List.length_cons] at hfuel
      simp only [framesFrom,framed_cons,List.append_assoc]
      rw [next_frame hfirst]
      exact congrArg _ (ih hothers (by omega))

theorem length_framed_ge (hwidth : 0 < width) (payloads : List Bytes) :
    payloads.length ≤ (framed width payloads).length := by
  induction payloads with
  | nil => simp
  | cons payload payloads ih =>
    rw [framed_cons,List.length_append,length_frame,List.length_cons]
    omega

/-- The frames of a stream and a rest are those of the stream. -/
theorem frames_framed (hwidth : 0 < width) {payloads : List Bytes}
    (hfits : ∀ payload ∈ payloads, Framable width payload) {rest : Bytes}
    (hrest : Incomplete width rest) : frames width (framed width payloads ++ rest) = payloads := by
  refine framesFrom_framed hfits hrest ?_
  have hlength := length_framed_ge hwidth payloads
  rw [List.length_append]
  omega

theorem incomplete_nil (hwidth : 0 < width) : Incomplete width [] :=
  incomplete_iff.mpr (by simp only [List.length_nil]; omega)

theorem frames_framed_nil (hwidth : 0 < width) {payloads : List Bytes}
    (hfits : ∀ payload ∈ payloads, Framable width payload) :
    frames width (framed width payloads) = payloads := by
  have h := frames_framed hwidth hfits (incomplete_nil hwidth)
  rwa [List.append_nil] at h

/-- Any bytes are a stream of their frames and a rest. -/
theorem framesFrom_split (hwidth : 0 < width) {fuel : ℕ} {bytes : Bytes}
    (hfuel : bytes.length ≤ fuel) : ∃ rest,
      bytes = framed width (framesFrom width fuel bytes) ++ rest ∧ Incomplete width rest ∧
        ∀ payload ∈ framesFrom width fuel bytes, Framable width payload := by
  induction fuel generalizing bytes with
  | zero =>
    have hnil : bytes = [] := List.eq_nil_of_length_eq_zero (by omega)
    subst hnil
    exact ⟨[],rfl,incomplete_nil hwidth,by simp [framesFrom]⟩
  | succ fuel ih =>
    unfold framesFrom
    cases hnext : next width bytes with
    | none => exact ⟨bytes,rfl,hnext,by simp⟩
    | some result =>
      obtain ⟨payload,behind⟩ := result
      obtain ⟨rfl,hfits⟩ := next_some hnext
      rw [List.length_append,length_frame] at hfuel
      obtain ⟨rest,hbehind,hrest,hall⟩ := @ih behind (by omega)
      refine ⟨rest,?_,hrest,List.forall_mem_cons.mpr ⟨hfits,hall⟩⟩
      rw [framed_cons,List.append_assoc,← hbehind]

theorem frames_split (hwidth : 0 < width) (bytes : Bytes) : ∃ rest,
    bytes = framed width (frames width bytes) ++ rest ∧ Incomplete width rest ∧
      ∀ payload ∈ frames width bytes, Framable width payload :=
  framesFrom_split hwidth le_rfl

/-- More bytes do not change the frames that are there. -/
theorem frames_prefix (hwidth : 0 < width) {payloads : List Bytes}
    (hfits : ∀ payload ∈ payloads, Framable width payload) (behind : Bytes) :
    payloads <+: frames width (framed width payloads ++ behind) := by
  obtain ⟨rest,hbehind,hrest,hall⟩ := frames_split hwidth behind
  have hall' : ∀ payload ∈ payloads ++ frames width behind, Framable width payload :=
    List.forall_mem_append.mpr ⟨hfits,hall⟩
  have hsame := frames_framed hwidth hall' hrest
  rw [framed_append,List.append_assoc,← hbehind] at hsame
  exact ⟨frames width behind,hsame.symm⟩

theorem frames_mono (hwidth : 0 < width) {bytes more : Bytes} (h : bytes <+: more) :
    frames width bytes <+: frames width more := by
  obtain ⟨behind,rfl⟩ := h
  obtain ⟨rest,hbytes,_,hall⟩ := frames_split hwidth bytes
  have hmore := frames_prefix hwidth hall (rest ++ behind)
  rwa [← List.append_assoc,← hbytes] at hmore

end Framing
