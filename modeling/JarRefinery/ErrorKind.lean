/-!
The kinds of failure. Every kind but the most general one is a special case of another, and a
handler of one kind answers its special cases too. The stages of a run each have a failure of their
own.
-/
namespace JarRefinery

inductive ErrorKind where
  | baseException
  | systemExit
  | keyboardInterrupt
  | generatorExit
  | exception
  | stopIteration
  | arithmeticError
  | floatingPointError
  | overflowError
  | zeroDivisionError
  | assertionError
  | attributeError
  | bufferError
  | eofError
  | importError
  | moduleNotFoundError
  | lookupError
  | indexError
  | keyError
  | memoryError
  | nameError
  | unboundLocalError
  | osError
  | blockingIOError
  | childProcessError
  | connectionError
  | brokenPipeError
  | connectionAbortedError
  | connectionRefusedError
  | connectionResetError
  | fileExistsError
  | fileNotFoundError
  | interruptedError
  | isADirectoryError
  | notADirectoryError
  | permissionError
  | processLookupError
  | timeoutError
  | badGzipFile
  | referenceError
  | runtimeError
  | notImplementedError
  | recursionError
  | syntaxError
  | indentationError
  | tabError
  | parseError
  | systemError
  | typeError
  | valueError
  | unicodeError
  | unicodeDecodeError
  | unicodeEncodeError
  | unicodeTranslateError
  | jsonDecodeError
  | validationError
  | settingsError
  | warning
  | bytesWarning
  | deprecationWarning
  | encodingWarning
  | futureWarning
  | importWarning
  | pendingDeprecationWarning
  | resourceWarning
  | runtimeWarning
  | syntaxWarning
  | unicodeWarning
  | userWarning
  | dependencyFetchWarning
  | badArchive
  | largeArchive
  | compressionError
  | packError
  | pipelineError
  | toolMissing
  | workspaceError
  | versionNotFound
  | metadataFetchError
  | artifactFetchError
  | unpackError
  | sanitizeError
  | mappingUnavailable
  | mappingExtractionError
  | remapFailure
  | decompileFailure
  | toolFetchError
  | httpFetchError
  | httpStatusError
  | httpRetriesExceeded
  | transientStatus
  | httpError
  | requestError
  | transportError
  | timeoutException
  | connectTimeout
  | readTimeout
  | writeTimeout
  | poolTimeout
  | networkError
  | connectError
  | readError
  | writeError
  | closeError
  | proxyError
  | unsupportedProtocol
  | protocolError
  | localProtocolError
  | remoteProtocolError
  | decodingError
  | tooManyRedirects
  | httpResponseError
  | invalidUrl
  | cookieConflict
  | streamError
  | streamConsumed
  | streamClosed
  | responseNotRead
  | requestNotRead
deriving DecidableEq, Repr

namespace ErrorKind

/-- The name of a kind and the kind that it is a special case of. -/
def entry : ErrorKind → String × Option ErrorKind
  | baseException => ("BaseException", none)
  | systemExit => ("SystemExit", some baseException)
  | keyboardInterrupt => ("KeyboardInterrupt", some baseException)
  | generatorExit => ("GeneratorExit", some baseException)
  | exception => ("Exception", some baseException)
  | stopIteration => ("StopIteration", some exception)
  | arithmeticError => ("ArithmeticError", some exception)
  | floatingPointError => ("FloatingPointError", some arithmeticError)
  | overflowError => ("OverflowError", some arithmeticError)
  | zeroDivisionError => ("ZeroDivisionError", some arithmeticError)
  | assertionError => ("AssertionError", some exception)
  | attributeError => ("AttributeError", some exception)
  | bufferError => ("BufferError", some exception)
  | eofError => ("EOFError", some exception)
  | importError => ("ImportError", some exception)
  | moduleNotFoundError => ("ModuleNotFoundError", some importError)
  | lookupError => ("LookupError", some exception)
  | indexError => ("IndexError", some lookupError)
  | keyError => ("KeyError", some lookupError)
  | memoryError => ("MemoryError", some exception)
  | nameError => ("NameError", some exception)
  | unboundLocalError => ("UnboundLocalError", some nameError)
  | osError => ("OSError", some exception)
  | blockingIOError => ("BlockingIOError", some osError)
  | childProcessError => ("ChildProcessError", some osError)
  | connectionError => ("ConnectionError", some osError)
  | brokenPipeError => ("BrokenPipeError", some connectionError)
  | connectionAbortedError => ("ConnectionAbortedError", some connectionError)
  | connectionRefusedError => ("ConnectionRefusedError", some connectionError)
  | connectionResetError => ("ConnectionResetError", some connectionError)
  | fileExistsError => ("FileExistsError", some osError)
  | fileNotFoundError => ("FileNotFoundError", some osError)
  | interruptedError => ("InterruptedError", some osError)
  | isADirectoryError => ("IsADirectoryError", some osError)
  | notADirectoryError => ("NotADirectoryError", some osError)
  | permissionError => ("PermissionError", some osError)
  | processLookupError => ("ProcessLookupError", some osError)
  | timeoutError => ("TimeoutError", some osError)
  | badGzipFile => ("BadGzipFile", some osError)
  | referenceError => ("ReferenceError", some exception)
  | runtimeError => ("RuntimeError", some exception)
  | notImplementedError => ("NotImplementedError", some runtimeError)
  | recursionError => ("RecursionError", some runtimeError)
  | syntaxError => ("SyntaxError", some exception)
  | indentationError => ("IndentationError", some syntaxError)
  | tabError => ("TabError", some indentationError)
  | parseError => ("ParseError", some syntaxError)
  | systemError => ("SystemError", some exception)
  | typeError => ("TypeError", some exception)
  | valueError => ("ValueError", some exception)
  | unicodeError => ("UnicodeError", some valueError)
  | unicodeDecodeError => ("UnicodeDecodeError", some unicodeError)
  | unicodeEncodeError => ("UnicodeEncodeError", some unicodeError)
  | unicodeTranslateError => ("UnicodeTranslateError", some unicodeError)
  | jsonDecodeError => ("JSONDecodeError", some valueError)
  | validationError => ("ValidationError", some valueError)
  | settingsError => ("SettingsError", some valueError)
  | warning => ("Warning", some exception)
  | bytesWarning => ("BytesWarning", some warning)
  | deprecationWarning => ("DeprecationWarning", some warning)
  | encodingWarning => ("EncodingWarning", some warning)
  | futureWarning => ("FutureWarning", some warning)
  | importWarning => ("ImportWarning", some warning)
  | pendingDeprecationWarning => ("PendingDeprecationWarning", some warning)
  | resourceWarning => ("ResourceWarning", some warning)
  | runtimeWarning => ("RuntimeWarning", some warning)
  | syntaxWarning => ("SyntaxWarning", some warning)
  | unicodeWarning => ("UnicodeWarning", some warning)
  | userWarning => ("UserWarning", some warning)
  | dependencyFetchWarning => ("DependencyFetchWarning", some userWarning)
  | badArchive => ("BadZipFile", some exception)
  | largeArchive => ("LargeZipFile", some exception)
  | compressionError => ("error", some exception)
  | packError => ("error", some exception)
  | pipelineError => ("PipelineError", some runtimeError)
  | toolMissing => ("ToolMissing", some pipelineError)
  | workspaceError => ("WorkspaceError", some pipelineError)
  | versionNotFound => ("VersionNotFound", some pipelineError)
  | metadataFetchError => ("MetadataFetchError", some pipelineError)
  | artifactFetchError => ("ArtifactFetchError", some pipelineError)
  | unpackError => ("UnpackError", some pipelineError)
  | sanitizeError => ("SanitizeError", some pipelineError)
  | mappingUnavailable => ("MappingUnavailable", some pipelineError)
  | mappingExtractionError => ("MappingExtractionError", some pipelineError)
  | remapFailure => ("RemapFailure", some pipelineError)
  | decompileFailure => ("DecompileFailure", some pipelineError)
  | toolFetchError => ("ToolFetchError", some pipelineError)
  | httpFetchError => ("HttpFetchError", some runtimeError)
  | httpStatusError => ("HttpStatusError", some httpFetchError)
  | httpRetriesExceeded => ("HttpRetriesExceeded", some httpFetchError)
  | transientStatus => ("_TransientStatus", some exception)
  | httpError => ("HTTPError", some exception)
  | requestError => ("RequestError", some httpError)
  | transportError => ("TransportError", some requestError)
  | timeoutException => ("TimeoutException", some transportError)
  | connectTimeout => ("ConnectTimeout", some timeoutException)
  | readTimeout => ("ReadTimeout", some timeoutException)
  | writeTimeout => ("WriteTimeout", some timeoutException)
  | poolTimeout => ("PoolTimeout", some timeoutException)
  | networkError => ("NetworkError", some transportError)
  | connectError => ("ConnectError", some networkError)
  | readError => ("ReadError", some networkError)
  | writeError => ("WriteError", some networkError)
  | closeError => ("CloseError", some networkError)
  | proxyError => ("ProxyError", some transportError)
  | unsupportedProtocol => ("UnsupportedProtocol", some transportError)
  | protocolError => ("ProtocolError", some transportError)
  | localProtocolError => ("LocalProtocolError", some protocolError)
  | remoteProtocolError => ("RemoteProtocolError", some protocolError)
  | decodingError => ("DecodingError", some requestError)
  | tooManyRedirects => ("TooManyRedirects", some requestError)
  | httpResponseError => ("HTTPStatusError", some httpError)
  | invalidUrl => ("InvalidURL", some exception)
  | cookieConflict => ("CookieConflict", some exception)
  | streamError => ("StreamError", some runtimeError)
  | streamConsumed => ("StreamConsumed", some streamError)
  | streamClosed => ("StreamClosed", some streamError)
  | responseNotRead => ("ResponseNotRead", some streamError)
  | requestNotRead => ("RequestNotRead", some streamError)

def name (kind : ErrorKind) : String :=
  kind.entry.1

def parent? (kind : ErrorKind) : Option ErrorKind :=
  kind.entry.2

def all : List ErrorKind := [
  baseException, systemExit, keyboardInterrupt, generatorExit, exception, stopIteration,
  arithmeticError, floatingPointError, overflowError, zeroDivisionError, assertionError,
  attributeError, bufferError, eofError, importError, moduleNotFoundError, lookupError,
  indexError, keyError, memoryError, nameError, unboundLocalError, osError, blockingIOError,
  childProcessError, connectionError, brokenPipeError, connectionAbortedError,
  connectionRefusedError, connectionResetError, fileExistsError, fileNotFoundError,
  interruptedError, isADirectoryError, notADirectoryError, permissionError, processLookupError,
  timeoutError, badGzipFile, referenceError, runtimeError, notImplementedError, recursionError,
  syntaxError, indentationError, tabError, parseError, systemError, typeError, valueError,
  unicodeError, unicodeDecodeError, unicodeEncodeError, unicodeTranslateError, jsonDecodeError,
  validationError, settingsError, warning, bytesWarning, deprecationWarning, encodingWarning,
  futureWarning, importWarning, pendingDeprecationWarning, resourceWarning, runtimeWarning,
  syntaxWarning, unicodeWarning, userWarning, dependencyFetchWarning, badArchive, largeArchive,
  compressionError, packError, pipelineError, toolMissing, workspaceError, versionNotFound,
  metadataFetchError, artifactFetchError, unpackError, sanitizeError, mappingUnavailable,
  mappingExtractionError, remapFailure, decompileFailure, toolFetchError, httpFetchError,
  httpStatusError, httpRetriesExceeded, transientStatus, httpError, requestError, transportError,
  timeoutException, connectTimeout, readTimeout, writeTimeout, poolTimeout, networkError,
  connectError, readError, writeError, closeError, proxyError, unsupportedProtocol,
  protocolError, localProtocolError, remoteProtocolError, decodingError, tooManyRedirects,
  httpResponseError, invalidUrl, cookieConflict, streamError, streamConsumed, streamClosed,
  responseNotRead, requestNotRead]

/-- The kind of this name. Two old names of the system's failures are still in use. -/
def ofName? (text : String) : Option ErrorKind :=
  if text = "IOError" ∨ text = "EnvironmentError" then some osError
  else all.find? (·.name = text)

/-- The kinds that `kind` is a case of, itself first; chains of special cases are at most `fuel`
long. -/
def lineageFrom : (fuel : Nat) → (kind : ErrorKind) → List ErrorKind
  | 0, _ => []
  | fuel + 1, kind =>
    kind :: match kind.parent? with
      | none => []
      | some parent => lineageFrom fuel parent

def lineage (kind : ErrorKind) : List ErrorKind :=
  lineageFrom 8 kind

/-- Whether a handler of failures of kind `general` answers those of kind `kind`. -/
def isA (kind general : ErrorKind) : Bool :=
  kind.lineage.contains general

/-- The stage of a run that failures of this kind belong to by themselves. -/
def stage? : ErrorKind → Option String
  | pipelineError => some "pipeline"
  | toolMissing => some "preflight"
  | workspaceError => some "preflight"
  | versionNotFound => some "resolve"
  | metadataFetchError => some "resolve"
  | artifactFetchError => some "fetch"
  | unpackError => some "unpack"
  | sanitizeError => some "sanitize"
  | mappingUnavailable => some "mappings"
  | mappingExtractionError => some "mappings"
  | remapFailure => some "remap"
  | decompileFailure => some "decompile"
  | toolFetchError => some "fetch-tools"
  | _ => none

end ErrorKind

end JarRefinery
