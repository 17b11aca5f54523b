import SmartDns.Dns.Message
import SmartDns.Lib.Numeral
import Mathlib.Data.List.MinMax
import Mathlib.Data.Rat.Defs
set_option autoImplicit false

/-!
`DNSCryptResolver`: queries are padded and boxed, replies are taken out of the box and
decoded as they are, and the server's key comes from a certificate that the provider has
signed. Boxes, signatures and messages are those of other packages.
-/

namespace SmartDns

namespace Dnscrypt

abbrev Bytes := List UInt8

def minimumSize : Nat := 256
def moduloSize : Nat := 64
def nonceSize : Nat := 12
def resolverMagic : Bytes := [0x72,0x36,0x66,0x6e,0x76,0x57,0x6a,0x38]
def certMagic : Bytes := [0x44,0x4e,0x53,0x43]

/-- Integers are unpacked from the highest byte on. -/
def bigEndian (bytes : Bytes) : Nat := Numeral.ofWords 256 (bytes.map UInt8.toNat)

/-! ### Queries and replies -/

def targetSize (message : Bytes) : Nat :=
  let size := max (message.length+1) minimumSize
  if size % moduloSize ≠ 0 then size + (moduloSize - size % moduloSize) else size

/-- `_pad_query`. -/
def padQuery (message : Bytes) : Bytes :=
  let paddingSize := targetSize message - message.length
  if paddingSize = 0 then message
  else message ++ 0x80 :: List.replicate (paddingSize-1) 0

/-- `nacl.public.Box`; what is encrypted stands without its nonce. -/
structure Box where
  encrypt : Bytes → Bytes → Bytes
  decrypt : Bytes → Bytes → Except PyException Bytes
  decrypt_encrypt : ∀ message nonce, nonce.length = 2*nonceSize →
    decrypt (encrypt message nonce) nonce = .ok message

def trailingJunk : PyException := ⟨.formError,"TrailingJunk",""⟩

/-- `dns.message.from_wire` with `one_rr_per_rrset` and `ignore_trailing`. -/
structure WireReader where
  fromWire : Bytes → Bool → Bool → Except PyException Message
  trailing : ∀ message oneRrPerRrset m extra, fromWire message oneRrPerRrset false = .ok m →
    extra ≠ [] → fromWire (message ++ extra) oneRrPerRrset false = .error trailingJunk

structure DNSCryptResolver where
  clientMagic : Bytes
  publicKey : Bytes
  secretbox : Box

/-- `_encrypt_query` of an encoded query; half of the nonce is sent, the rest is zero. -/
def DNSCryptResolver.encryptQuery (resolver : DNSCryptResolver) (clientNonce wire : Bytes) :
    Bytes :=
  let nonce := clientNonce ++ List.replicate nonceSize 0
  let encrypted := nonce ++ resolver.secretbox.encrypt (padQuery wire) nonce
  resolver.clientMagic ++ resolver.publicKey ++
    (encrypted.take nonceSize ++ encrypted.drop (2*nonceSize))

/-- `_decrypt_response`. -/
def DNSCryptResolver.decryptResponse (resolver : DNSCryptResolver) (reader : WireReader)
    (wire : Bytes) (oneRrPerRrset ignoreTrailing : Bool) : Except PyException Message :=
  if wire.length < 32 then .error (.formError "DNSCrypt response too short")
  else
    let magic := wire.take 8
    let nonce := (wire.drop 8).take 24
    let data := wire.drop 32
    if magic ≠ resolverMagic then .error (.formError "This does not appear to be DNSCrypt")
    else do
      let payload ← resolver.secretbox.decrypt data nonce
      reader.fromWire payload oneRrPerRrset ignoreTrailing

/-- A message, the byte that ends it and zeros up to a full block. -/
structure IsPadded (message padded : Bytes) : Prop where
  tail : ∃ n, padded = message ++ 0x80 :: List.replicate n 0
  blocks : padded.length % moduloSize = 0
  least : minimumSize ≤ padded.length
  longer : message.length < padded.length

theorem targetSize_spec (message : Bytes) : targetSize message % moduloSize = 0 ∧
    minimumSize ≤ targetSize message ∧ message.length < targetSize message := by
  unfold targetSize moduloSize minimumSize
  simp only []
  split <;> omega

theorem padQuery_isPadded (message : Bytes) : IsPadded message (padQuery message) := by
  obtain ⟨hblocks,hleast,hlonger⟩ := targetSize_spec message
  have hpadding : targetSize message - message.length ≠ 0 := by omega
  have hpad : padQuery message = message ++
      0x80 :: List.replicate (targetSize message - message.length - 1) 0 := by
    simp [padQuery,hpadding]
  have hlength : (padQuery message).length = targetSize message := by
    rw [hpad]
    simp
    omega
  refine ⟨⟨_,hpad⟩,?_,?_,?_⟩
  · rw [hlength]
    exact hblocks
  · rw [hlength]
    exact hleast
  · rw [hlength]
    exact hlonger

theorem decryptResponse_boxed (resolver : DNSCryptResolver) (reader : WireReader)
    {nonce : Bytes} (hnonce : nonce.length = 2*nonceSize) (payload : Bytes)
    (oneRrPerRrset ignoreTrailing : Bool) :
    resolver.decryptResponse reader
        (resolverMagic ++ (nonce ++ resolver.secretbox.encrypt payload nonce)) oneRrPerRrset
        ignoreTrailing =
      reader.fromWire payload oneRrPerRrset ignoreTrailing := by
  have hmagic : resolverMagic.length = 8 := rfl
  have hsize : nonce.length = 24 := hnonce
  have hlong :
      ¬ (resolverMagic ++ (nonce ++ resolver.secretbox.encrypt payload nonce)).length < 32 := by
    simp [hmagic,hsize]
    omega
  have htail : (resolverMagic ++ (nonce ++ resolver.secretbox.encrypt payload nonce)).drop 8 =
      nonce ++ resolver.secretbox.encrypt payload nonce := List.drop_left' hmagic
  have hdata : (resolverMagic ++ (nonce ++ resolver.secretbox.encrypt payload nonce)).drop 32 =
      resolver.secretbox.encrypt payload nonce := by
    rw [show 32 = 8+24 from rfl,← List.drop_drop,htail,List.drop_left' hsize]
  unfold DNSCryptResolver.decryptResponse
  simp only [hlong,if_false,htail,hdata,List.take_left' hmagic,List.take_left' hsize,ne_eq,
    not_true_eq_false,resolver.secretbox.decrypt_encrypt payload nonce hnonce]
  rfl

/-- A query is padded as it has to be, but of a reply that is padded so the padding is never
taken off: behind the message it is refused. -/
theorem decryptResponse_padded (resolver : DNSCryptResolver) (reader : WireReader)
    (message : Bytes) :
    IsPadded message (padQuery message) ∧
      ∀ oneRrPerRrset m, reader.fromWire message oneRrPerRrset false = .ok m →
        ∀ padded nonce, IsPadded message padded → nonce.length = 2*nonceSize →
          resolver.decryptResponse reader
              (resolverMagic ++ (nonce ++ resolver.secretbox.encrypt padded nonce)) oneRrPerRrset
              false =
            .error trailingJunk := by
  refine ⟨padQuery_isPadded message,fun oneRrPerRrset m hread padded nonce hpadded hnonce => ?_⟩
  obtain ⟨n,htail⟩ := hpadded.tail
  rw [decryptResponse_boxed resolver reader hnonce,htail]
  exact reader.trailing message oneRrPerRrset m _ hread (List.cons_ne_nil _ _)

/-- A box that hides nothing. -/
def openBox : Box where
  encrypt message _ := message
  decrypt data _ := .ok data
  decrypt_encrypt _ _ _ := rfl

/-- The header of a reply without records. -/
def bareWire : Bytes := [0,7,0x80,0,0,0,0,0,0,0,0,0]

def bareReply : Message := { id := 7, flags := { qr := true } }

/-- A reader of one wire. -/
def readFixed (known : Bytes) (m : Message) (wire : Bytes) (ignoreTrailing : Bool) :
    Except PyException Message :=
  if known.isPrefixOf wire then
    if wire.length = known.length ∨ ignoreTrailing = true then .ok m
    else .error trailingJunk
  else .error (.formError "")

theorem readFixed_trailing {known : Bytes} {m read : Message} {message extra : Bytes}
    (h : readFixed known m message false = .ok read) (hextra : extra ≠ []) :
    readFixed known m (message ++ extra) false = .error trailingJunk := by
  unfold readFixed at *
  by_cases hinitial : known.isPrefixOf message = true
  · by_cases hlength : message.length = known.length
    · have hlonger : known.isPrefixOf (message ++ extra) = true :=
        List.isPrefixOf_iff_prefix.mpr
          ((List.isPrefixOf_iff_prefix.mp hinitial).trans (List.prefix_append _ _))
      have hpositive := List.length_pos_iff.mpr hextra
      have hmore : ¬ (message.length + extra.length = known.length) := by omega
      simp [hlonger,hmore]
    · simp [hinitial,hlength] at h
  · simp [hinitial] at h

def bareReader : WireReader where
  fromWire wire _ ignoreTrailing := readFixed bareWire bareReply wire ignoreTrailing
  trailing _ _ _ _ := readFixed_trailing

def openResolver : DNSCryptResolver := ⟨List.replicate 8 1,List.replicate 32 2,openBox⟩

theorem decryptResponse_padded_bare :
    openResolver.decryptResponse bareReader
        (resolverMagic ++ (List.replicate 24 3 ++
          openBox.encrypt (padQuery bareWire) (List.replicate 24 3))) false false =
      .error trailingJunk := by
  obtain ⟨hpadded,hrefused⟩ := decryptResponse_padded openResolver bareReader bareWire
  exact hrefused false bareReply rfl _ _ hpadded rfl

/-- The reply decodes by itself, but not behind its padding. -/
theorem decryptResponse_junk :
    bareReader.fromWire bareWire false false = .ok bareReply ∧
      IsPadded bareWire (padQuery bareWire) ∧
        openResolver.decryptResponse bareReader
            (resolverMagic ++ (List.replicate 24 3 ++
              openBox.encrypt (padQuery bareWire) (List.replicate 24 3))) false false ≠
          .ok bareReply := by
  refine ⟨rfl,padQuery_isPadded bareWire,fun h => ?_⟩
  rw [← show openResolver.secretbox = openBox from rfl,
    decryptResponse_boxed openResolver bareReader rfl] at h
  have hrefused : bareReader.fromWire (padQuery bareWire) false false = .error trailingJunk := by
    decide +kernel
  rw [hrefused] at h
  cases h

/-! ### The certificate of the server -/

/-- What the provider has signed; extensions may stand behind its 52 fixed bytes. -/
structure Certificate where
  payload : Bytes
  deriving DecidableEq, Repr

namespace Certificate
variable (cert : Certificate)

def pk : Bytes := cert.payload.take 32
def clientMagic : Bytes := (cert.payload.drop 32).take 8
def serial : Nat := bigEndian ((cert.payload.drop 40).take 4)
def start : Nat := bigEndian ((cert.payload.drop 44).take 4)
def expire : Nat := bigEndian ((cert.payload.drop 48).take 4)

end Certificate

/-- `nacl.signing.VerifyKey`: what 64 bytes of signature stand before, or none for
`BadSignatureError`. -/
structure VerifyKey where
  verify : Bytes → Option Bytes
  signature : ∀ signed data, verify signed = some data → signed.length = 64 + data.length

/-- `dns.rdtypes.ANY.TXT.TXT`. -/
structure Txt where
  strings : List Bytes

/-- A reply to the question for the certificates: the TC flag and the rrsets. -/
structure TxtReply where
  truncated : Bool := false
  answer : List (List Txt) := []

/-- The exchanges of `_fetch_server_key`, of which the last is for a timeout; then `_tcp_only`
is set as well. -/
def fetchReply (udp tcp tcpAgain : Except PyException TxtReply) :
    Except PyException TxtReply × Bool :=
  let reply := do
    let reply ← udp
    if reply.truncated then tcp else .ok reply
  match reply with
  | .ok reply => (.ok reply,false)
  | .error e => if e.kind = .timeoutError then (tcpAgain,true) else (.error e,false)

def TxtReply.candidates (reply : TxtReply) : List Bytes :=
  reply.answer.flatMap fun rrset => rrset.map fun rdata => rdata.strings.flatten

section
variable (verifyKey : VerifyKey) (now : ℚ)

/-- One turn of the loop over the candidates. -/
def considerCandidate (selected : Option Certificate) (candidate : Bytes) : Option Certificate :=
  if candidate.length ≤ 8 then selected
  else
    let magic := candidate.take 4
    let esVersion := bigEndian ((candidate.drop 4).take 2)
    let signed := candidate.drop 8
    if magic ≠ certMagic ∨ esVersion ≠ 1 then selected
    else
      match verifyKey.verify signed with
      | none => selected
      | some data =>
        if data.length ≤ 52 then selected
        else
          let cert : Certificate := ⟨data⟩
          if (cert.start : ℚ) > now ∨ (cert.expire : ℚ) < now then selected
          else
            match selected with
            | none => some cert
            | some best => if cert.serial > best.serial then some cert else selected

/-- `_fetch_server_key`: the client magic and the key of the server. -/
def fetchServerKey (server : String) (udp tcp tcpAgain : Except PyException TxtReply) :
    Except PyException (Bytes × Bytes) := do
  let reply ← (fetchReply udp tcp tcpAgain).1
  match reply.candidates.foldl (considerCandidate verifyKey now) none with
  | none => .error ⟨.other,"TypeError","No valid certificate found for " ++ server⟩
  | some cert => .ok (cert.clientMagic,cert.pk)

/-- What makes a candidate valid. -/
structure ValidCertificate (candidate : Bytes) (cert : Certificate) : Prop where
  magic : candidate.take 4 = certMagic
  esVersion : bigEndian ((candidate.drop 4).take 2) = 1
  signed : verifyKey.verify (candidate.drop 8) = some cert.payload
  fixed : 52 ≤ cert.payload.length
  started : (cert.start : ℚ) ≤ now
  current : now ≤ (cert.expire : ℚ)

/-- What the loop takes for valid: extensions have to be there. -/
structure ExtendedCertificate (candidate : Bytes) (cert : Certificate) : Prop where
  valid : ValidCertificate verifyKey now candidate cert
  extended : 52 < cert.payload.length

end

/-- The first certificate with the greatest serial among those that candidates have. -/
structure Leading (Has : Bytes → Certificate → Prop) (candidates : List Bytes)
    (cert : Certificate) : Prop where
  split : ∃ before candidate after, candidates = before ++ candidate :: after ∧
    Has candidate cert ∧
      (∀ other ∈ before, ∀ c, Has other c → c.serial < cert.serial) ∧
        ∀ other ∈ after, ∀ c, Has other c → c.serial ≤ cert.serial

section
variable {Has : Bytes → Certificate → Prop} {candidates : List Bytes} {candidate : Bytes}
  {cert : Certificate}

theorem leading_snoc_iff : Leading Has (candidates ++ [candidate]) cert ↔
    (Leading Has candidates cert ∧ ∀ c, Has candidate c → c.serial ≤ cert.serial) ∨
      Has candidate cert ∧ ∀ other ∈ candidates, ∀ c, Has other c → c.serial < cert.serial := by
  constructor
  · intro h
    obtain ⟨before,found,after,hsplit,hhas,hbefore,hafter⟩ := h.split
    cases after using List.reverseRecOn with
    | nil =>
      obtain ⟨rfl,hfound⟩ := List.append_inj' hsplit rfl
      cases hfound
      exact .inr ⟨hhas,hbefore⟩
    | append_singleton after last =>
      rw [← List.cons_append,← List.append_assoc] at hsplit
      obtain ⟨rfl,hlast⟩ := List.append_inj' hsplit rfl
      cases hlast
      refine .inl ⟨⟨before,found,after,rfl,hhas,hbefore,fun other hother => ?_⟩,?_⟩
      · exact hafter other (List.mem_append_left _ hother)
      · exact hafter candidate (by simp)
  · intro h
    obtain ⟨h,hlast⟩ | ⟨hhas,hbefore⟩ := h
    · obtain ⟨before,found,after,rfl,hhas,hbefore,hafter⟩ := h.split
      refine ⟨before,found,after ++ [candidate],by simp,hhas,hbefore,fun other hother => ?_⟩
      cases List.mem_append.mp hother with
      | inl hother => exact hafter other hother
      | inr hother =>
        rw [List.mem_singleton.mp hother]
        exact hlast
    · exact ⟨candidates,candidate,[],rfl,hhas,hbefore,by simp⟩

theorem Leading.unique {other : Certificate} (hone : ∀ x a b, Has x a → Has x b → a = b)
    (h : Leading Has candidates cert) (hother : Leading Has candidates other) : other = cert := by
  induction candidates using List.reverseRecOn with
  | nil =>
    obtain ⟨before,found,after,hsplit,_⟩ := h.split
    simp at hsplit
  | append_singleton candidates last ih =>
    obtain ⟨hcert,hlast⟩ | ⟨hcert,hbefore⟩ := leading_snoc_iff.mp h
    · obtain ⟨hearlier,_⟩ | ⟨hlater,hbefore⟩ := leading_snoc_iff.mp hother
      · exact ih hcert hearlier
      · obtain ⟨before,found,after,rfl,hhas,_⟩ := hcert.split
        have hless := hbefore found (by simp) cert hhas
        have hle := hlast other hlater
        omega
    · obtain ⟨hearlier,hlast⟩ | ⟨hlater,_⟩ := leading_snoc_iff.mp hother
      · obtain ⟨before,found,after,rfl,hhas,_⟩ := hearlier.split
        have hless := hbefore found (by simp) other hhas
        have hle := hlast cert hcert
        omega
      · exact hone last other cert hlater hcert

end

section
variable {verifyKey : VerifyKey} {now : ℚ}

theorem ValidCertificate.unique {candidate : Bytes} {a b : Certificate}
    (ha : ValidCertificate verifyKey now candidate a)
    (hb : ValidCertificate verifyKey now candidate b) : a = b := by
  have hsame := ha.signed.symm.trans hb.signed
  cases a
  cases b
  simpa using hsame

theorem ExtendedCertificate.long {candidate : Bytes} {cert : Certificate}
    (h : ExtendedCertificate verifyKey now candidate cert) : 8 < candidate.length := by
  have hsigned := verifyKey.signature _ _ h.valid.signed
  rw [List.length_drop] at hsigned
  omega

/-- A turn takes up what the candidate has when that is better than what was selected. -/
theorem considerCandidate_cases (verifyKey : VerifyKey) (now : ℚ)
    (selected : Option Certificate) (candidate : Bytes) :
    (∃ cert, ExtendedCertificate verifyKey now candidate cert ∧
      considerCandidate verifyKey now selected candidate =
        if ∀ best ∈ selected, best.serial < cert.serial then some cert else selected) ∨
    (∀ cert, ¬ ExtendedCertificate verifyKey now candidate cert) ∧
      considerCandidate verifyKey now selected candidate = selected := by
  unfold considerCandidate
  split
  · rename_i hshort
    exact .inr ⟨fun cert h => by have := h.long; omega,rfl⟩
  · simp only []
    split
    · rename_i hheader
      refine .inr ⟨fun cert h => ?_,rfl⟩
      cases hheader with
      | inl hmagic => exact hmagic h.valid.magic
      | inr hversion => exact hversion h.valid.esVersion
    · rename_i hheader
      rw [not_or,not_not,not_not] at hheader
      cases hverify : verifyKey.verify (candidate.drop 8) with
      | none =>
        refine .inr ⟨fun cert h => ?_,rfl⟩
        have hsigned := h.valid.signed
        rw [hverify] at hsigned
        contradiction
      | some data =>
        simp only []
        have hpayload {cert : Certificate}
            (h : ExtendedCertificate verifyKey now candidate cert) : cert = ⟨data⟩ := by
          have hsigned := h.valid.signed
          rw [hverify] at hsigned
          cases cert
          simpa using hsigned.symm
        split
        · rename_i hlength
          refine .inr ⟨fun cert h => ?_,rfl⟩
          have hextended := h.extended
          rw [hpayload h] at hextended
          exact absurd hextended (by simpa using hlength)
        · rename_i hlength
          split
          · rename_i hperiod
            refine .inr ⟨fun cert h => ?_,rfl⟩
            have hstarted := h.valid.started
            have hcurrent := h.valid.current
            rw [hpayload h] at hstarted hcurrent
            cases hperiod with
            | inl hstart => exact absurd hstarted (not_le.mpr hstart)
            | inr hexpire => exact absurd hcurrent (not_le.mpr hexpire)
          · rename_i hperiod
            rw [not_or,not_lt,not_lt] at hperiod
            refine .inl ⟨⟨data⟩,⟨⟨hheader.1,hheader.2,hverify,?_,hperiod.1,hperiod.2⟩,?_⟩,?_⟩
            · show 52 ≤ data.length
              omega
            · show 52 < data.length
              omega
            · cases selected with
              | none => simp
              | some best => simp

/-- What the loop has selected of the candidates behind it. -/
def Selected (Has : Bytes → Certificate → Prop) (candidates : List Bytes) :
    Option Certificate → Prop
  | none => ∀ other ∈ candidates, ∀ c, ¬ Has other c
  | some cert => Leading Has candidates cert

theorem Leading.le {Has : Bytes → Certificate → Prop} {candidates : List Bytes}
    {cert : Certificate} (hone : ∀ x a b, Has x a → Has x b → a = b)
    (h : Leading Has candidates cert) :
    ∀ other ∈ candidates, ∀ c, Has other c → c.serial ≤ cert.serial := by
  obtain ⟨before,found,after,rfl,hhas,hbefore,hafter⟩ := h.split
  intro other hother c hc
  obtain hmem | hmem := List.mem_append.mp hother
  · exact (hbefore other hmem c hc).le
  · cases hmem with
    | head => exact (congrArg Certificate.serial (hone _ _ _ hc hhas)).le
    | tail _ hmem => exact hafter other hmem c hc

theorem Selected.step {candidates : List Bytes} {selected : Option Certificate}
    (h : Selected (ExtendedCertificate verifyKey now) candidates selected) (candidate : Bytes) :
    Selected (ExtendedCertificate verifyKey now) (candidates ++ [candidate])
      (considerCandidate verifyKey now selected candidate) := by
  have hone : ∀ x a b, ExtendedCertificate verifyKey now x a →
      ExtendedCertificate verifyKey now x b → a = b := fun _ _ _ ha hb => ha.valid.unique hb.valid
  obtain ⟨cert,hcert,hturn⟩ | ⟨hnone,hturn⟩ :=
    considerCandidate_cases verifyKey now selected candidate
  · rw [hturn]
    split
    · rename_i hbetter
      refine leading_snoc_iff.mpr (.inr ⟨hcert,fun other hother c hc => ?_⟩)
      cases selected with
      | none => exact absurd hc (h other hother c)
      | some best => exact (h.le hone other hother c hc).trans_lt (hbetter best rfl)
    · rename_i hworse
      cases selected with
      | none => simp at hworse
      | some best =>
        refine leading_snoc_iff.mpr (.inl ⟨h,fun c hc => ?_⟩)
        rw [hone _ _ _ hc hcert]
        simpa using hworse
  · rw [hturn]
    cases selected with
    | none =>
      intro other hother c
      cases List.mem_append.mp hother with
      | inl hother => exact h other hother c
      | inr hother =>
        rw [List.mem_singleton.mp hother]
        exact hnone c
    | some best => exact leading_snoc_iff.mpr (.inl ⟨h,fun c hc => absurd hc (hnone c)⟩)

theorem considerCandidates_selected (verifyKey : VerifyKey) (now : ℚ) (candidates : List Bytes) :
    Selected (ExtendedCertificate verifyKey now) candidates
      (candidates.foldl (considerCandidate verifyKey now) none) := by
  induction candidates using List.reverseRecOn with
  | nil => exact fun other hother => (List.not_mem_nil hother).elim
  | append_singleton candidates candidate ih =>
    rw [List.foldl_append]
    exact ih.step candidate

/-- Some candidate is the first of the greatest serial, unless none has a certificate. -/
theorem exists_leading {Has : Bytes → Certificate → Prop}
    (hone : ∀ x a b, Has x a → Has x b → a = b) {candidates : List Bytes}
    (h : ∃ candidate ∈ candidates, ∃ cert, Has candidate cert) :
    ∃ best, Leading Has candidates best := by
  induction candidates using List.reverseRecOn with
  | nil =>
    obtain ⟨candidate,hmem,_⟩ := h
    exact (List.not_mem_nil hmem).elim
  | append_singleton candidates last ih =>
    by_cases hearlier : ∃ other ∈ candidates, ∃ c, Has other c
    · obtain ⟨best,hbest⟩ := ih hearlier
      by_cases hbeaten : ∃ c, Has last c ∧ best.serial < c.serial
      · obtain ⟨c,hc,hless⟩ := hbeaten
        exact ⟨c,leading_snoc_iff.mpr (.inr ⟨hc,fun other hother d hd =>
          (hbest.le hone other hother d hd).trans_lt hless⟩)⟩
      · refine ⟨best,leading_snoc_iff.mpr (.inl ⟨hbest,fun c hc => ?_⟩)⟩
        by_contra hless
        exact hbeaten ⟨c,hc,by omega⟩
    · obtain ⟨candidate,hmem,cert,hcert⟩ := h
      cases List.mem_append.mp hmem with
      | inl hmem => exact absurd ⟨candidate,hmem,cert,hcert⟩ hearlier
      | inr hmem =>
        rw [List.mem_singleton.mp hmem] at hcert
        exact ⟨cert,leading_snoc_iff.mpr (.inr ⟨hcert,fun other hother c hc =>
          absurd ⟨other,hother,c,hc⟩ hearlier⟩)⟩

/-- The certificate that is returned is the first of the greatest serial among the valid ones,
and an error says that there is none. -/
def SelectsValid (verifyKey : VerifyKey) (now : ℚ) (candidates : List Bytes)
    (result : Except PyException (Bytes × Bytes)) : Prop :=
  (∃ cert, Leading (ValidCertificate verifyKey now) candidates cert ∧
    result = .ok (cert.clientMagic,cert.pk)) ∨
  (∀ candidate ∈ candidates, ∀ cert, ¬ ValidCertificate verifyKey now candidate cert) ∧
    ∃ e, result = .error e

theorem fetchServerKey_reply (verifyKey : VerifyKey) (now : ℚ) (server : String)
    {udp tcp tcpAgain : Except PyException TxtReply} {reply : TxtReply}
    (h : (fetchReply udp tcp tcpAgain).1 = .ok reply) :
    fetchServerKey verifyKey now server udp tcp tcpAgain =
      match reply.candidates.foldl (considerCandidate verifyKey now) none with
      | none => .error ⟨.other,"TypeError","No valid certificate found for " ++ server⟩
      | some cert => .ok (cert.clientMagic,cert.pk) := by
  unfold fetchServerKey
  rw [h]
  rfl

/-- The right certificate is returned exactly when the valid one it should be has extensions,
or has its magic and key in common with the first of the greatest serial that has. -/
theorem fetchServerKey_iff (server : String) {udp tcp tcpAgain : Except PyException TxtReply}
    {reply : TxtReply} (h : (fetchReply udp tcp tcpAgain).1 = .ok reply) :
    SelectsValid verifyKey now reply.candidates
        (fetchServerKey verifyKey now server udp tcp tcpAgain) ↔
      ∀ cert, Leading (ValidCertificate verifyKey now) reply.candidates cert →
        ∃ extended, Leading (ExtendedCertificate verifyKey now) reply.candidates extended ∧
          extended.clientMagic = cert.clientMagic ∧ extended.pk = cert.pk := by
  have hone : ∀ x a b, ValidCertificate verifyKey now x a → ValidCertificate verifyKey now x b →
      a = b := fun _ _ _ ha hb => ha.unique hb
  have honeExtended : ∀ x a b, ExtendedCertificate verifyKey now x a →
      ExtendedCertificate verifyKey now x b → a = b := fun _ _ _ ha hb => ha.valid.unique hb.valid
  have hselected := considerCandidates_selected verifyKey now reply.candidates
  have hresult := fetchServerKey_reply verifyKey now server h
  cases hfold : reply.candidates.foldl (considerCandidate verifyKey now) none with
  | none =>
    rw [hfold] at hselected hresult
    rw [hresult]
    constructor
    · intro hright cert hcert
      obtain ⟨_,_,herror⟩ | ⟨hnone,_⟩ := hright
      · cases herror
      · obtain ⟨before,candidate,after,hsplit,hhas,_⟩ := hcert.split
        exact absurd hhas (hnone candidate (by simp [hsplit]) cert)
    · intro hcondition
      refine .inr ⟨fun candidate hmem cert hcert => ?_,_,rfl⟩
      obtain ⟨best,hbest⟩ := exists_leading hone ⟨candidate,hmem,cert,hcert⟩
      obtain ⟨extended,hextended,_⟩ := hcondition best hbest
      obtain ⟨before,found,after,hsplit,hhas,_⟩ := hextended.split
      exact hselected found (by simp [hsplit]) extended hhas
  | some cert =>
    rw [hfold] at hselected hresult
    rw [hresult]
    constructor
    · intro hright best hbest
      obtain ⟨other,hother,hsame⟩ | ⟨_,_,herror⟩ := hright
      · rw [← hother.unique hone hbest] at hsame
        exact ⟨cert,hselected,by simpa using hsame⟩
      · cases herror
    · intro hcondition
      have hleading : Leading (ExtendedCertificate verifyKey now) reply.candidates cert := hselected
      obtain ⟨before,found,after,hsplit,hhas,_⟩ := hleading.split
      have hfound : found ∈ reply.candidates := by simp [hsplit]
      obtain ⟨best,hbest⟩ := exists_leading hone ⟨found,hfound,cert,hhas.valid⟩
      obtain ⟨extended,hextended,hmagic,hpk⟩ := hcondition best hbest
      rw [hleading.unique honeExtended hextended] at hmagic hpk
      exact .inl ⟨best,hbest,by rw [← hmagic,← hpk]⟩

end

/-- A key under which every signature holds. -/
def lenientKey : VerifyKey where
  verify signed := if 64 ≤ signed.length then some (signed.drop 64) else none
  signature signed data h := by
    split at h
    · cases h
      simp
      omega
    · cases h

/-- A candidate whose payload is valid from 0 to 2^32-1, with these bytes behind its fixed ones. -/
def candidateWith (extensions : Bytes) : Bytes :=
  certMagic ++ [0,1,0,0] ++ List.replicate 64 0 ++ (List.replicate 32 7 ++ List.replicate 8 1 ++
    [0,0,0,1,0,0,0,0,0xff,0xff,0xff,0xff] ++ extensions)

def replyWith (extensions : Bytes) : TxtReply := { answer := [[⟨[candidateWith extensions]⟩]] }

theorem fetchServerKey_iff_extended :
    SelectsValid lenientKey 5 (replyWith [0]).candidates
      (fetchServerKey lenientKey 5 "h:53 (p)" (.ok (replyWith [0])) (.ok {}) (.ok {})) := by
  refine (fetchServerKey_iff "h:53 (p)" rfl).mpr fun cert hcert => ?_
  obtain ⟨before,candidate,after,hsplit,hhas,hbefore,hafter⟩ := hcert.split
  have hlength : 52 < cert.payload.length := by
    have hall : ∀ other ∈ (replyWith [0]).candidates, other.length = 125 := by decide +kernel
    have hlong := hall candidate (by simp [hsplit])
    have hpayload := lenientKey.signature _ _ hhas.signed
    rw [List.length_drop,hlong] at hpayload
    omega
  refine ⟨cert,⟨before,candidate,after,hsplit,⟨hhas,hlength⟩,fun other hother c hc => ?_,
    fun other hother c hc => ?_⟩,rfl,rfl⟩
  · exact hbefore other hother c hc.valid
  · exact hafter other hother c hc.valid

/-- A valid certificate without extensions is passed over. -/
theorem fetchServerKey_bare :
    (∃ cert, ValidCertificate lenientKey 5 (candidateWith []) cert) ∧
      ¬ SelectsValid lenientKey 5 (replyWith []).candidates
        (fetchServerKey lenientKey 5 "h:53 (p)" (.ok (replyWith [])) (.ok {}) (.ok {})) := by
  have hvalid : ValidCertificate lenientKey 5 (candidateWith [])
      ⟨(candidateWith []).drop 72⟩ :=
    ⟨rfl,rfl,rfl,by decide,by decide +kernel,by decide +kernel⟩
  refine ⟨⟨_,hvalid⟩,fun h => ?_⟩
  have hnone : (replyWith []).candidates.foldl (considerCandidate lenientKey 5) none = none := by
    decide +kernel
  have hreply : (fetchReply (.ok (replyWith [])) (.ok {}) (.ok {})).1 = .ok (replyWith []) := rfl
  rw [fetchServerKey_reply lenientKey 5 "h:53 (p)" hreply,hnone] at h
  obtain ⟨cert,_,hresult⟩ | ⟨hnever,_⟩ := h
  · cases hresult
  · exact hnever _ (List.mem_singleton.mpr rfl) _ hvalid

end Dnscrypt

end SmartDns
