import PingWaf.Lib.Framing
import PingWaf.Plugin.Request

/-!
# Cookies of a request

The cookie lookup that the plugins share.
-/

namespace PingWaf.Plugin

open Text

/-- `get_req_header_value`: the first value of a header, if it is text. -/
def getReqHeaderValue (r : RequestHeader) (name : String) : Option String :=
  (r.get name).bind HeaderLine.toStr

/-- The value of one item of a cookie header, if the item is of this name. The fallback allows for
blanks around the equals sign. -/
def cookieItemValue (cookieName item : String) : Option String :=
  (afterPrefix cookieName (trim item)).bind fun rest =>
    (afterPrefix "=" rest).or ((splitOnce '=' item).bind fun kv =>
      if trim kv.1 = cookieName then some (trim kv.2) else none)

/-- `get_cookie_value`: the first cookie of this name. -/
def getCookieValue (r : RequestHeader) (cookieName : String) : Option String :=
  (getReqHeaderValue r "cookie").bind fun text =>
    (splitChar ';' text).findSome? (cookieItemValue cookieName)

/-! ## Lines of plain text -/

def HeaderLine.ofText (name text : String) : HeaderLine :=
  ⟨name, text.toList.map fun ch => UInt8.ofNat ch.toNat⟩

def isCookieChar (ch : Char) : Bool := 32 < ch.toNat && ch.toNat < 127 && ch != ';'

theorem isWhitespace_of_cookieChar {ch : Char} (h : isCookieChar ch = true) :
    isWhitespace ch = false := by
  simp only [isCookieChar, Bool.and_eq_true, decide_eq_true_eq] at h
  simp only [isWhitespace, Bool.or_eq_false_iff, Bool.and_eq_false_iff, decide_eq_false_iff_not,
    beq_eq_false_iff_ne]
  omega

end PingWaf.Plugin
