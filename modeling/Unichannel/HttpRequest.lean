/-
# Headers and requests (HttpHeader.h, HttpRequest.h)

The request object the parser fills.  A default-constructed `HttpRequest` has
empty strings and no headers; its two version fields are left uninitialised, so
`HttpRequest.fresh` takes whatever they happen to hold.
-/
import Unichannel.Bytes

namespace Unichannel

/-- `HttpHeader`. -/
structure HttpHeader where
  name : Bytes
  value : Bytes
  deriving DecidableEq, Repr

/-- The header `HttpHeader()` pushed when a header line starts. -/
def HttpHeader.empty : HttpHeader := ⟨[], []⟩

/-- `HttpRequest`.  The version fields are 32-bit `int`s, held by value. -/
structure HttpRequest where
  method_ : Bytes
  uri_ : Bytes
  httpMajorVer_ : ℤ
  httpMinorVer_ : ℤ
  headers_ : List HttpHeader
  deriving DecidableEq, Repr

namespace HttpRequest

/-- A request just constructed, with the values `maj` and `min` in the version
fields that the constructor does not set. -/
def fresh (maj min : ℤ) : HttpRequest := ⟨[], [], maj, min, []⟩

/-- `req.method_.push_back(input)`. -/
def pushMethod (req : HttpRequest) (input : Byte) : HttpRequest :=
  { req with method_ := req.method_ ++ [input] }

/-- `req.uri_.push_back(input)`. -/
def pushUri (req : HttpRequest) (input : Byte) : HttpRequest :=
  { req with uri_ := req.uri_ ++ [input] }

/-- `req.headers_.push_back(HttpHeader())`. -/
def pushHeader (req : HttpRequest) : HttpRequest :=
  { req with headers_ := req.headers_ ++ [HttpHeader.empty] }

/-- Update of `req.headers_.back()`.  The vector is never empty where the parser
does this; on an empty one the update is lost. -/
def onBack (f : HttpHeader → HttpHeader) (req : HttpRequest) : HttpRequest :=
  { req with headers_ := req.headers_.dropLast ++ req.headers_.getLast?.toList.map f }

/-- `req.headers_.back().name.push_back(input)`. -/
def pushName (req : HttpRequest) (input : Byte) : HttpRequest :=
  req.onBack fun h => { h with name := h.name ++ [input] }

/-- `req.headers_.back().value.push_back(input)`. -/
def pushValue (req : HttpRequest) (input : Byte) : HttpRequest :=
  req.onBack fun h => { h with value := h.value ++ [input] }

/-! ## Headers are only appended to -/

/-- What is done to the last header makes no header and removes none. -/
@[simp] theorem onBack_isEmpty (f : HttpHeader → HttpHeader) (req : HttpRequest) :
    (req.onBack f).headers_.isEmpty = req.headers_.isEmpty := by
  rcases List.eq_nil_or_concat' req.headers_ with h | ⟨hs, h, heq⟩
  · simp [onBack, h]
  · cases hs <;> simp [onBack, heq]

@[simp] theorem pushName_isEmpty (req : HttpRequest) (input : Byte) :
    (req.pushName input).headers_.isEmpty = req.headers_.isEmpty := onBack_isEmpty _ req

@[simp] theorem pushValue_isEmpty (req : HttpRequest) (input : Byte) :
    (req.pushValue input).headers_.isEmpty = req.headers_.isEmpty := onBack_isEmpty _ req

/-- Once a header was begun there is one. -/
@[simp] theorem pushHeader_isEmpty (req : HttpRequest) :
    req.pushHeader.headers_.isEmpty = false := by
  simp [pushHeader]

/-! ## What an update changes -/

/-- A header after an update is one from before, or the last one updated. -/
theorem mem_onBack {f : HttpHeader → HttpHeader} {req : HttpRequest} {h : HttpHeader}
    (hh : h ∈ (req.onBack f).headers_) : h ∈ req.headers_ ∨ ∃ g ∈ req.headers_, h = f g := by
  rcases List.mem_append.mp hh with hinit | hlast
  · exact Or.inl (List.mem_of_mem_dropLast hinit)
  · obtain ⟨g, hg, rfl⟩ := List.mem_map.mp hlast
    exact Or.inr ⟨g, List.mem_of_getLast? (Option.mem_toList.mp hg), rfl⟩

/-- The first byte of a name begins its header. -/
theorem pushHeader_pushName (req : HttpRequest) (input : Byte) :
    req.pushHeader.pushName input = { req with headers_ := req.headers_ ++ [⟨[input], []⟩] } := by
  simp [pushHeader, pushName, onBack, HttpHeader.empty]

/-- The method leaves the headers alone. -/
@[simp] theorem pushMethod_headers (req : HttpRequest) (input : Byte) :
    (req.pushMethod input).headers_ = req.headers_ := rfl

@[simp] theorem pushUri_headers (req : HttpRequest) (input : Byte) :
    (req.pushUri input).headers_ = req.headers_ := rfl

end HttpRequest

end Unichannel
