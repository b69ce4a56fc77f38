import TraceReplay.Json.Writing

/-!
# JSON lines

One compact JSON text a line.
-/

namespace TraceReplay.Lines

def writeLine (value : Json) : Bytes := value.compact ++ [0x0a]

def write (values : List Json) : Bytes := values.flatMap writeLine

end TraceReplay.Lines
