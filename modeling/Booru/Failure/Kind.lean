/-! The kinds of failure that callers and logs tell apart. -/

namespace Booru

inductive FailureKind
  | config
  | api
  | userLookup
  | userNotFound
  | unauthorized
  | transport
  | lex
  | resolver
  | precondition
  | value
  | type
  | key
  | index
  | attribute
  | runtime
  | os
  | overflow
  | assertion
  | fileExists
  | fileNotFound
  | isADirectory
  | notADirectory
  | brokenPipe
  | unicodeDecode
  | unicodeEncode
  | interrupt
  | request
  | http
  | connection
  | ssl
  | proxy
  | connectTimeout
  | timeout
  | readTimeout
  | chunkedEncoding
  | tooManyRedirects
  | invalidUrl
  | malformedJson
  deriving DecidableEq, Repr

namespace FailureKind

def name : FailureKind → String
  | .config => "ConfigError"
  | .api => "ApiError"
  | .userLookup => "UserLookupError"
  | .userNotFound => "UserNotFoundError"
  | .unauthorized => "UnauthorizedError"
  | .transport => "TransportError"
  | .lex => "LexError"
  | .resolver => "ResolverError"
  | .precondition => "PreconditionError"
  | .value => "ValueError"
  | .type => "TypeError"
  | .key => "KeyError"
  | .index => "IndexError"
  | .attribute => "AttributeError"
  | .runtime => "RuntimeError"
  | .os => "OSError"
  | .overflow => "OverflowError"
  | .assertion => "AssertionError"
  | .fileExists => "FileExistsError"
  | .fileNotFound => "FileNotFoundError"
  | .isADirectory => "IsADirectoryError"
  | .notADirectory => "NotADirectoryError"
  | .brokenPipe => "BrokenPipeError"
  | .unicodeDecode => "UnicodeDecodeError"
  | .unicodeEncode => "UnicodeEncodeError"
  | .interrupt => "KeyboardInterrupt"
  | .request => "RequestException"
  | .http => "HTTPError"
  | .connection => "ConnectionError"
  | .ssl => "SSLError"
  | .proxy => "ProxyError"
  | .connectTimeout => "ConnectTimeout"
  | .timeout => "Timeout"
  | .readTimeout => "ReadTimeout"
  | .chunkedEncoding => "ChunkedEncodingError"
  | .tooManyRedirects => "TooManyRedirects"
  | .invalidUrl => "InvalidURL"
  | .malformedJson => "JSONDecodeError"

def isTimeout : FailureKind → Bool
  | .timeout | .readTimeout | .connectTimeout => true
  | _ => false

def isConnection : FailureKind → Bool
  | .connection | .ssl | .proxy | .connectTimeout => true
  | _ => false

def isRequest : FailureKind → Bool
  | .request | .http | .chunkedEncoding | .tooManyRedirects | .invalidUrl | .malformedJson => true
  | k => k.isTimeout || k.isConnection

def isSystem : FailureKind → Bool
  | .os | .fileExists | .fileNotFound | .isADirectory | .notADirectory | .brokenPipe => true
  | k => k.isRequest

def isValue : FailureKind → Bool
  | .value | .invalidUrl | .malformedJson | .unicodeDecode | .unicodeEncode => true
  | _ => false

end FailureKind

structure Fault where
  kind : FailureKind
  text : String
  deriving DecidableEq, Repr

/-- Why a line is not printed, or a file takes no more of a text. -/
inductive OutputError
  | brokenPipe
  | refused (detail : String)
  | unencodable (detail : String)
  deriving DecidableEq, Repr

def OutputError.fault : OutputError → Fault
  | .brokenPipe => ⟨.brokenPipe, "[Errno 32] Broken pipe"⟩
  | .refused detail => ⟨.os, detail⟩
  | .unencodable detail => ⟨.unicodeEncode, detail⟩

end Booru
