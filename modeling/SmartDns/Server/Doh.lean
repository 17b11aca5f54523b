import SmartDns.Resolver.DohClient
set_option autoImplicit false

/-!
The `dns` parameter of a DNS-over-HTTPS request by `GET`. The server reads from it the bytes that
the client wrote.
-/

namespace SmartDns

open QueryText (Bytes parseQsl)
open UrlText (urlsplit)

structure HTTPException where
  statusCode : Nat
  detail : String
  deriving DecidableEq,Repr

/-- `base64.b64decode` of an ASCII text, with `altchars=b"-_"` and `validate=True`. -/
def b64decode (text : List Char) : Option Bytes :=
  if text.all QueryText.isAscii then
    Base64.decode Base64.standard (text.map Base64.fromUrlSafe)
  else none

def decodeDohQuery (value : List Char) : Except HTTPException Bytes :=
  let padded := value ++ List.replicate (-(value.length : Int)%4).toNat '='
  match b64decode padded with
  | some wire => .ok wire
  | none => .error ⟨400,"invalid dns query parameter"⟩

theorem restored_padding (length : Nat) :
    (-(length : Int)%4).toNat = Base64.padding length := by
  rw [Base64.padding]
  omega

theorem decodeDohQuery_base64urlNoPadding (wire : Bytes) :
    decodeDohQuery (base64urlNoPadding wire) = .ok wire := by
  have hpadded : base64urlNoPadding wire ++
      List.replicate (-((base64urlNoPadding wire).length : Int)%4).toNat '=' =
      (Base64.unpadded Base64.standard wire).map Base64.toUrlSafe ++
        List.replicate (Base64.padding (Base64.digits wire).length) '=' := by
    rw [base64urlNoPadding_eq,restored_padding,Base64.unpadded,List.length_map,List.length_map]
  have hascii : ((Base64.unpadded Base64.standard wire).map Base64.toUrlSafe ++
      List.replicate (Base64.padding (Base64.digits wire).length) '=').all
        QueryText.isAscii = true := by
    refine List.all_eq_true.mpr fun c hc => ?_
    obtain hc | hc := List.mem_append.mp hc
    · obtain ⟨x,hx,rfl⟩ := List.mem_map.mp hc
      obtain ⟨d,-,rfl⟩ := List.mem_map.mp hx
      exact decide_eq_true (Base64.toUrlSafe_symbol d).1
    · rw [List.eq_of_mem_replicate hc]
      rfl
  have hback : ((Base64.unpadded Base64.standard wire).map Base64.toUrlSafe ++
      List.replicate (Base64.padding (Base64.digits wire).length) '=').map Base64.fromUrlSafe =
      Base64.encode Base64.standard wire := by
    rw [List.map_append,List.map_replicate,Base64.unpadded,List.map_map,List.map_map]
    refine congrArg₂ _ (List.map_congr_left fun d _ => ?_) rfl
    exact Base64.fromUrlSafe_toUrlSafe d
  rw [decodeDohQuery,hpadded,b64decode,if_pos hascii,hback,Base64.decode_encode]

section
variable {replaced : Bytes → List Char} {admits : List Char → Bool}

/-- The client's URL has one `dns` parameter, and the server reads the wire of it. What the
server reads of any value is written and read as the same bytes. -/
theorem dohGet_agrees {url : List Char} {parts : UrlText.SplitResult}
    (hsplit : urlsplit admits url = some parts)
    (hnone : ∀ item ∈ parseQsl replaced parts.query, item.1 ≠ dnsParam) (wire : Bytes) :
    (∃ built query value, urlWithDnsParam replaced admits url wire = some built ∧
      urlsplit admits built = some {parts with query := query} ∧
      parseQsl replaced query = parseQsl replaced parts.query ++ [(dnsParam,value)] ∧
      (parseQsl replaced query).filter (fun item => item.1 = dnsParam) = [(dnsParam,value)] ∧
      decodeDohQuery value = .ok wire) ∧
    ∀ value bytes, decodeDohQuery value = .ok bytes →
      decodeDohQuery (base64urlNoPadding bytes) = .ok bytes := by
  refine ⟨?_,fun value bytes _ => decodeDohQuery_base64urlNoPadding bytes⟩
  obtain ⟨built,query,hbuilt,hparts,hitems⟩ := urlWithDnsParam_eq hsplit wire
  refine ⟨built,query,base64urlNoPadding wire,hbuilt,hparts,hitems,?_,
    decodeDohQuery_base64urlNoPadding wire⟩
  have hothers : (parseQsl replaced parts.query).filter (fun item => item.1 = dnsParam) = [] :=
    List.filter_eq_nil_iff.mpr fun item hitem => by simpa using hnone item hitem
  rw [hitems,List.filter_append,hothers]
  simp

end

theorem dohGet_agrees_host :
    ∃ built query value, urlWithDnsParam (fun _ => [Char.ofNat 0xfffd]) (fun _ => true)
        "https://host/dns-query?a=1&b".toList [0,0xfb,0xff,0x7e] = some built ∧
      urlsplit (fun _ => true) built =
        some ⟨"https".toList,"host".toList,"/dns-query".toList,query,[]⟩ ∧
      parseQsl (fun _ => [Char.ofNat 0xfffd]) query =
        parseQsl (fun _ => [Char.ofNat 0xfffd]) "a=1&b".toList ++ [(dnsParam,value)] ∧
      (parseQsl (fun _ => [Char.ofNat 0xfffd]) query).filter (fun item => item.1 = dnsParam) =
        [(dnsParam,value)] ∧
      decodeDohQuery value = .ok [0,0xfb,0xff,0x7e] := by
  have hsplit : urlsplit (fun _ => true) "https://host/dns-query?a=1&b".toList =
      some ⟨"https".toList,"host".toList,"/dns-query".toList,"a=1&b".toList,[]⟩ := by
    decide +kernel
  exact (dohGet_agrees hsplit (by decide +kernel) [0,0xfb,0xff,0x7e]).1

end SmartDns
