/-
# ImportAudit.Specifier — what a module specifier points at.

A specifier is relative if it is a path: one that begins with a dot or two, with a slash or
backslash, with a drive or with a scheme.  Any other specifier begins with the name of a package,
which is its first segment, or its first two if it begins with `@`; a package is built in or has
to be declared.  Where a path may end behind a dot or a drive, a single line feed at the end of the
specifier does not count.
-/
import ImportAudit.Path
import ImportAudit.Text.Letters

namespace ImportAudit

namespace Specifier

/-! ## Relative specifiers -/

/-- Nothing follows, or a single line feed at the end. -/
def ends : List Char → Bool
  | [] => true
  | ['\n'] => true
  | _ => false

/-- A slash or a backslash comes first. -/
def opensSegment : List Char → Bool
  | '/' :: _ => true
  | '\\' :: _ => true
  | _ => false

/-- One dot or two, and then the end or a segment. -/
def isDotted : List Char → Bool
  | '.' :: '.' :: rest => ends rest || opensSegment rest
  | '.' :: rest => ends rest || opensSegment rest
  | _ => false

/-- An ASCII letter. -/
def isLetter (c : Char) : Bool := c.isAlpha

/-- A character of a scheme behind the first. -/
def isSchemePart (c : Char) : Bool := Text.isWordPart c || c == '+' || c == '.' || c == '-'

/-- A letter and a colon, and then the end or a segment. -/
def isDrive : List Char → Bool
  | c :: ':' :: rest => isLetter c && (ends rest || opensSegment rest)
  | _ => false

/-- A scheme and `://`. -/
def hasScheme : List Char → Bool
  | c :: rest => isLetter c && "://".toList.isPrefixOf (rest.dropWhile isSchemePart)
  | [] => false

/-- The specifier is a path. -/
def isRelative (text : String) : Bool :=
  let cs := text.toList
  isDotted cs || opensSegment cs || isDrive cs || hasScheme cs

/-! ## Packages -/

/-- The package that a specifier begins with. -/
def packageName (text : String) : String :=
  let segments := Path.splitAt '/' text.toList
  if text.toList.head? = some '@' then
    String.ofList (['/'].intercalate (segments.take 2))
  else String.ofList (segments.headD [])

/-- The modules that come with the runtime. -/
def builtinModules : List String :=
  ["_http_agent", "_http_client", "_http_common", "_http_incoming", "_http_outgoing",
    "_http_server", "_stream_duplex", "_stream_passthrough", "_stream_readable",
    "_stream_transform", "_stream_wrap", "_stream_writable", "_tls_common", "_tls_wrap", "assert",
    "assert/strict", "async_hooks", "buffer", "child_process", "cluster", "console", "constants",
    "crypto", "dgram", "diagnostics_channel", "dns", "dns/promises", "domain", "events", "fs",
    "fs/promises", "http", "http2", "https", "inspector", "inspector/promises", "module", "net",
    "os", "path", "path/posix", "path/win32", "perf_hooks", "process", "punycode", "querystring",
    "readline", "readline/promises", "repl", "stream", "stream/consumers", "stream/promises",
    "stream/web", "string_decoder", "sys", "timers", "timers/promises", "tls", "trace_events",
    "tty", "url", "util", "util/types", "v8", "vm", "wasi", "worker_threads", "zlib"]

/-- A module comes with the runtime: it is listed, or named with the scheme of the runtime. -/
def isBuiltin (name : String) : Bool :=
  "node:".toList.isPrefixOf name.toList || builtinModules.contains name

end Specifier

/-- What a specifier points at: a path, or a package that is built in or is not. -/
inductive Target
  | relative
  | builtin (package : String)
  | external (package : String)
  deriving DecidableEq, Repr

namespace Target

/-- What a specifier points at. -/
def ofSpecifier (text : String) : Target :=
  if Specifier.isRelative text then .relative
  else
    let name := Specifier.packageName text
    if Specifier.isBuiltin name then .builtin name else .external name

/-- The name of the kind of target. -/
def kindName : Target → String
  | .relative => "relative"
  | .builtin _ => "builtin"
  | .external _ => "external"

/-- The package that is pointed at. -/
def package? : Target → Option String
  | .relative => none
  | .builtin name => some name
  | .external name => some name

end Target

end ImportAudit
