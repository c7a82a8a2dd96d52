import PingWaf.Lib.Scan
import PingWaf.Waf.Stage1

/-!
# The signature table

The built-in needles, the part of them that is active for a level and a set of stacks, and the
automaton over it: leftmost-longest matches that do not overlap, without regard to ASCII case, the
earliest pattern first among needles of one length. The descriptions of the patterns are left out.
-/

namespace PingWaf.Waf

open Text

/-! ## The table -/

structure BuiltinPattern where
  pattern : SignaturePattern
  strictOnly : Bool

def stackFor (id : String) : StackSet :=
  if ["DZ-001", "DZ-008", "DZ-009", "TI-006"].contains id then .java
  else if ["DZ-002", "DZ-004", "DZ-011", "TI-007"].contains id then .python
  else if ["DZ-005", "DZ-006", "DZ-007", "DZ-010"].contains id then .php
  else if id == "DZ-003" then .node
  else .generic

def pushPattern (id : String) (category : AttackCategory) (severity : Nat) (needle : String) :
    BuiltinPattern := ⟨⟨id, category, severity, stackFor id, needle⟩, false⟩

def pushStrict (id : String) (category : AttackCategory) (severity : Nat) (stack : StackSet)
    (needle : String) : BuiltinPattern := ⟨⟨id, category, severity, stack, needle⟩, true⟩

/-- The rows of one category. -/
def pushPatterns (category : AttackCategory) (rows : List (String × Nat × String)) :
    List BuiltinPattern := rows.map fun row => pushPattern row.1 category row.2.1 row.2.2

def alwaysPatterns : List BuiltinPattern :=
  pushPatterns .pathTraversal
    [("PT-001", 4, "../"), ("PT-002", 4, "..\\"), ("PT-003", 5, "/etc/passwd"),
     ("PT-004", 5, "/etc/shadow"), ("PT-005", 4, "/proc/self"), ("PT-006", 4, "windows\\system32"),
     ("PT-007", 4, "/windows/system32"), ("PT-008", 3, ".htaccess"), ("PT-009", 3, ".htpasswd"),
     ("PT-010", 3, "web.config"), ("PT-011", 3, "boot.ini"), ("PT-012", 4, "....//"),
     ("PT-013", 5, "etc/passwd"), ("PT-014", 5, "etc/shadow"), ("PT-015", 4, "proc/self"),
     ("PT-016", 5, "win.ini"), ("PT-017", 5, "web-inf"), ("PT-020", 5, "web.xml"),
     ("PT-018", 5, "portal_inc.lua"), ("PT-019", 5, "..;/")] ++
  pushPatterns .commandInjection
    [("CI-001", 5, "$(whoami)"), ("CI-002", 5, "$(id)"), ("CI-003", 4, "\x60id\x60"),
     ("CI-004", 4, "\x60whoami\x60"), ("CI-005", 4, "|cat"), ("CI-006", 4, "|ls"),
     ("CI-007", 4, "|wget"), ("CI-008", 4, "|curl"), ("CI-009", 4, ";ls"), ("CI-010", 4, ";cat"),
     ("CI-011", 4, ";id"), ("CI-012", 4, ";wget"), ("CI-013", 4, ";curl"), ("CI-014", 5, "&&wget"),
     ("CI-015", 5, "&&curl"), ("CI-016", 5, "||curl"), ("CI-017", 5, "||wget"),
     ("CI-018", 4, "$\x7bifs\x7d"), ("CI-019", 5, "/bin/sh"), ("CI-020", 5, "/bin/bash"),
     ("CI-021", 5, "bash -i"), ("CI-022", 5, "cmd.exe"), ("CI-023", 5, "powershell"),
     ("CI-024", 4, "nc -e"), ("CI-025", 4, "\n/bin/"), ("CI-026", 5, "os.system"),
     ("CI-027", 5, "__import__"), ("CI-028", 5, "shell_exec("), ("CI-029", 5, "passthru("),
     ("CI-030", 5, "proc_open("), ("CI-031", 4, "subprocess."), ("CI-032", 5, "invoke-expression"),
     ("CI-033", 4, "iex ("), ("CI-034", 4, "cmd /c"), ("CI-035", 4, "cmd.exe /c"),
     ("CI-036", 5, "powershell -enc"), ("CI-037", 4, "system("), ("CI-038", 5, "|whoami"),
     ("CI-039", 4, ";whoami"), ("CI-040", 4, "|uname"), ("CI-041", 4, "\x60uname\x60"),
     ("CI-042", 4, ";uname"), ("CI-043", 5, "getruntime().exec"), ("CI-044", 5, "securegroovy"),
     ("CI-045", 4, "; whoami"), ("CI-046", 4, "; uname"), ("CI-047", 4, "; ping "),
     ("CI-048", 4, "; curl "), ("CI-049", 4, "; wget "), ("CI-04a", 4, "; sleep "),
     ("CI-04b", 4, "; echo "), ("CI-050", 4, "| whoami"), ("CI-051", 4, "| uname"),
     ("CI-052", 4, "| ping "), ("CI-053", 4, "| curl "), ("CI-054", 4, "| wget "),
     ("CI-055", 4, "| sleep "), ("CI-060", 4, "|| whoami"), ("CI-061", 4, "|| uname"),
     ("CI-062", 4, "|| ping "), ("CI-063", 4, "|| curl "), ("CI-064", 4, "|| wget "),
     ("CI-065", 4, "|| sleep "), ("CI-070", 4, "\x60ping "), ("CI-071", 4, "\x60curl "),
     ("CI-072", 4, "\x60wget "), ("CI-078", 5, "eval(atob("), ("CI-080", 5, ")(uid="),
     ("CI-081", 5, ")(|("), ("CI-082", 5, "*)(objectclass="), ("CI-083", 5, "ping -c "),
     ("CI-084", 5, "#context.get("), ("CI-085", 5, "<?php"),
     ("CI-086", 5, "think\\app/invokefunction"), ("CI-087", 5, "\x60touch "),
     ("CI-088", 5, "runphp="), ("CI-089", 5, "*)((|"), ("CI-090", 5, "allow_url_include"),
     ("CI-091", 5, "#post_render"), ("CI-092", 5, "#pre_render"), ("CI-093", 5, "#lazy_builder"),
     ("CI-094", 5, "#markup"), ("CI-095", 5, "#elements"), ("CI-096", 5, "<%eval"),
     ("CI-097", 5, "<%execute"), ("CI-098", 5, "eval request("), ("CI-099", 5, "file_put_contents"),
     ("CI-107", 4, "||nslookup "), ("CI-108", 4, "|touch /"),
     ("CI-109", 5, "--open-files-in-pager="), ("CI-110", 5, "--upload-pack="),
     ("CI-111", 5, "require('os')"), ("CI-112", 5, "require(\"os\")"),
     ("CI-113", 5, "getruntime()"), ("CI-114", 5, "$\\a\x7b"), ("CI-115", 5, "$\\b\x7b")] ++
  pushPatterns .xss
    [("XSS-022", 5, "[(+\x7b\x7d+[])"), ("XSS-023", 5, "+ADw-"), ("XSS-024", 5, "alert(1)")] ++
  pushPatterns .ssrf
    [("SSRF-001", 5, "169.254.169.254"), ("SSRF-002", 5, "metadata.google"),
     ("SSRF-003", 5, "169.254.170.2"), ("SSRF-004", 4, "[::1]"), ("SSRF-005", 4, "127.0.0.1"),
     ("SSRF-006", 3, "0.0.0.0"), ("SSRF-007", 4, "localhost:"), ("SSRF-008", 5, "file://"),
     ("SSRF-009", 5, "gopher://"), ("SSRF-010", 5, "dict://"), ("SSRF-011", 4, "ldap://"),
     ("SSRF-012", 4, "ftp://"), ("SSRF-013", 4, "localhost"), ("SSRF-014", 4, "127.0.0.1"),
     ("SSRF-015", 5, "0x7f000001"), ("SSRF-016", 5, "2130706433"), ("SSRF-017", 5, "0177.0.0.1"),
     ("SSRF-018", 5, "gadgets/makerequest")] ++
  pushPatterns .deserialization
    [("DZ-001", 5, "aced0005"), ("DZ-002", 5, "__reduce__"), ("DZ-003", 5, "__proto__"),
     ("DZ-004", 4, "__class__"), ("DZ-005", 4, ":__wakeup"), ("DZ-006", 4, ":__destruct"),
     ("DZ-007", 4, ":__tostring"), ("DZ-008", 5, "runtime.exec"), ("DZ-009", 5, "processbuilder"),
     ("DZ-010", 4, "unserialize("), ("DZ-011", 4, "yaml.unsafe_load"), ("DZ-012", 4, "@java.lang."),
     ("DZ-013", 4, "#context="), ("DZ-014", 4, "#attr["), ("DZ-015", 4, "#application"),
     ("DZ-016", 5, "getclass().forname"), ("DZ-017", 5, "rO0AB"), ("DZ-018", 4, "<java.util."),
     ("DZ-019", 5, "serialization='custom'")] ++
  pushPatterns .xxe
    [("XXE-001", 3, "<!doctype"), ("XXE-002", 5, "<!entity"), ("XXE-003", 5, "system \"file:"),
     ("XXE-004", 5, "system 'file:"), ("XXE-005", 4, "public \"-//")] ++
  pushPatterns .crlfInjection
    [("CRLF-001", 4, "\r\n"), ("CRLF-002", 4, "\r"), ("CRLF-003", 5, "\r\nset-cookie"),
     ("CRLF-004", 5, "\r\nlocation:")] ++
  pushPatterns .templateInjection
    [("TI-001", 4, "\x7b\x7b"), ("TI-002", 4, "\x7b%"), ("TI-003", 4, "$\x7b"),
     ("TI-004", 4, "#\x7b"), ("TI-005", 4, "<%="), ("TI-006", 5, "$\x7bjndi:"),
     ("TI-007", 5, "\x7b\x7bself"), ("TI-008", 5, "\x7b\x7bconfig")] ++
  pushPatterns .sqlInjection
    [("SQL-001", 5, "union select"), ("SQL-002", 5, "union all select"), ("SQL-003", 4, "sleep("),
     ("SQL-004", 5, "benchmark("), ("SQL-005", 5, "pg_sleep("), ("SQL-006", 5, "waitfor delay"),
     ("SQL-007", 5, "load_file("), ("SQL-008", 5, "into outfile"), ("SQL-009", 5, "into dumpfile"),
     ("SQL-010", 3, "information_schema"), ("SQL-011", 3, "sqlite_master"),
     ("SQL-012", 3, "pg_catalog"), ("SQL-013", 4, "group_concat("), ("SQL-014", 4, "concat_ws("),
     ("SQL-015", 4, "extractvalue("), ("SQL-016", 4, "updatexml("), ("SQL-017", 4, "drop table"),
     ("SQL-018", 4, "truncate table"), ("SQL-019", 4, "xp_cmdshell"), ("SQL-020", 5, "utl_inaddr"),
     ("SQL-021", 5, "to program '"), ("SQL-022", 5, "cast((select"),
     ("SQL-023", 5, "extractvalue("), ("SQL-024", 5, "or 1 limit"), ("SQL-025", 5, "xp_dirtree"),
     ("SQL-026", 5, "dbms_pipe.receive_message"), ("SQL-027", 5, "updatexml(")] ++
  pushPatterns .xss
    [("XSS-001", 5, "<script"), ("XSS-002", 5, "</script"), ("XSS-003", 4, "<iframe"),
     ("XSS-004", 4, "<object"), ("XSS-005", 4, "<embed"), ("XSS-006", 4, "<svg"),
     ("XSS-007", 5, "javascript:"), ("XSS-008", 5, "vbscript:"), ("XSS-009", 4, "data:text/html"),
     ("XSS-010", 4, "onerror="), ("XSS-011", 4, "onload="), ("XSS-012", 4, "onmouseover="),
     ("XSS-013", 4, "onclick="), ("XSS-014", 4, "onfocus="), ("XSS-015", 3, "document.cookie"),
     ("XSS-016", 3, "window.location"), ("XSS-017", 4, "expression("), ("XSS-018", 4, "eval("),
     ("XSS-019", 3, "alert("), ("XSS-020", 4, "constructor.prototype"), ("XSS-021", 4, "+!![]")]

def strictPatterns : List BuiltinPattern :=
  [pushStrict "CI-101" .commandInjection 5 .generic "$(cat",
   pushStrict "CI-102" .commandInjection 5 .generic "$(ping",
   pushStrict "CI-103" .commandInjection 5 .generic "$(curl",
   pushStrict "CI-104" .commandInjection 5 .generic "$(wget",
   pushStrict "CI-105" .commandInjection 5 .generic "$(nc",
   pushStrict "CI-106" .commandInjection 5 .generic "$(bash",
   pushStrict "TI-101" .templateInjection 5 .java "$\x7blower:",
   pushStrict "TI-102" .templateInjection 5 .java "$\x7bupper:",
   pushStrict "TI-103" .templateInjection 5 .java "$\x7benv:",
   pushStrict "TI-104" .templateInjection 5 .java "$\x7bsys:"]

def builtinPatterns : List BuiltinPattern := alwaysPatterns ++ strictPatterns

def forProfile (level : WafLevel) (active : StackSet) : List SignaturePattern :=
  (builtinPatterns.filter fun p =>
    (level.isStrict || !p.strictOnly) && active.contains p.pattern.stack).map (·.pattern)

/-! ## The automaton -/

def lowerByte (b : UInt8) : UInt8 := if 65 ≤ b ∧ b ≤ 90 then b + 32 else b

def needleAt (needle : String) (l : List UInt8) : Bool :=
  ((utf8Encode needle).map lowerByte).isPrefixOf (l.map lowerByte)

/-- The longest needle at the head of the text, the first one among equals: its pattern with its place
in the table, and how far it reaches. -/
def longestAt (patterns : List SignaturePattern) (l : List UInt8) :
    Option ((SignaturePattern × Nat) × Nat) :=
  ((patterns.zipIdx.filter fun p => needleAt p.1.needle l).argmax fun p => byteLen p.1.needle).map
    fun p => (p, byteLen p.1.needle)

/-- `find_iter` with leftmost-longest matches. -/
def findIter (patterns : List SignaturePattern) (haystack : String) : List AhoMatch :=
  (Scan.pieces (longestAt patterns) 0 0 (utf8Encode haystack)).map fun m =>
    ⟨m.2.2, m.1, m.1 + byteLen m.2.1.needle⟩

def Detectors.withSignatures (d : Detectors) (level : WafLevel) (active : StackSet) : Detectors :=
  { d with
    patterns := forProfile level active
    findIter := Waf.findIter (forProfile level active) }

end PingWaf.Waf
