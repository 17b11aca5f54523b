import SmartDns.Core.UrlText
import SmartDns.Lib.Base64
set_option autoImplicit false

/-! The URL of a DNS-over-HTTPS request by `GET`. -/

namespace SmartDns

open QueryText (Bytes parseQsl urlencode)
open UrlText (urlsplit urlunsplit)

/-- `base64.urlsafe_b64encode`. -/
def urlsafeB64encode (data : Bytes) : List Char :=
  (Base64.encode Base64.standard data).map Base64.toUrlSafe

def base64urlNoPadding (data : Bytes) : List Char :=
  PyText.rstripBy (· = '=') (urlsafeB64encode data)

def dnsParam : List Char := ['d','n','s']

section
variable (replaced : Bytes → List Char) (admits : List Char → Bool)

/-- `none` is the `ValueError` of a URL that cannot be split. -/
def urlWithDnsParam (url : List Char) (wire : Bytes) : Option (List Char) := do
  let parts ← urlsplit admits url
  let queryItems := parseQsl replaced parts.query
  let queryItems := queryItems ++ [(dnsParam,base64urlNoPadding wire)]
  pure (urlunsplit {parts with query := urlencode queryItems})

end

/-- The padding is all that is stripped. -/
theorem base64urlNoPadding_eq (data : Bytes) :
    base64urlNoPadding data = (Base64.unpadded Base64.standard data).map Base64.toUrlSafe := by
  have hpadding : ∀ c ∈ (List.replicate (Base64.padding (Base64.digits data).length) '=').map
      Base64.toUrlSafe, decide (c = '=') = true := by
    intro c hc
    obtain ⟨d,hd,rfl⟩ := List.mem_map.mp hc
    rw [List.eq_of_mem_replicate hd]
    rfl
  rw [base64urlNoPadding,urlsafeB64encode,Base64.encode,List.map_append]
  rw [show Base64.standard.pad = '=' from rfl,PyText.rstripBy_append hpadding]
  refine PyText.rstripBy_eq fun c hc => ?_
  obtain ⟨x,hx,rfl⟩ := List.mem_map.mp (List.mem_of_getLast? hc)
  obtain ⟨d,-,rfl⟩ := List.mem_map.mp hx
  exact decide_eq_false (Base64.toUrlSafe_symbol d).2

section
variable {replaced : Bytes → List Char} {admits : List Char → Bool}

/-- The URL has the parts of the base URL, but for one more item in the query. -/
theorem urlWithDnsParam_eq {url : List Char} {parts : UrlText.SplitResult}
    (h : urlsplit admits url = some parts) (wire : Bytes) :
    ∃ built query, urlWithDnsParam replaced admits url wire = some built ∧
      urlsplit admits built = some {parts with query := query} ∧
      parseQsl replaced query =
        parseQsl replaced parts.query ++ [(dnsParam,base64urlNoPadding wire)] := by
  have hwell : ∀ items, UrlText.WellSplit admits {parts with query := urlencode items} :=
    fun items => (UrlText.wellSplit_of_urlsplit h).withQuery
      (QueryText.not_mem_urlencode rfl (by decide) (by decide) items)
      (UrlText.isUnsafe_urlencode items)
  refine ⟨_,_,?_,(hwell _).urlsplit_urlunsplit,QueryText.parseQsl_urlencode _⟩
  rw [urlWithDnsParam,h]
  rfl

end

end SmartDns
