import WireBench.MediaType
import WireBench.Path
import WireBench.Text.Utf8

/-!
# Parts

A part is a named piece of content with its media type, made from a file. Only the base name of the
file is kept, and the media type is looked up by the name.
-/

namespace WireBench

structure Part where
  name : String
  content : Bytes
  mediaType : String
  deriving DecidableEq

namespace Part

def ofName (types : MediaType.Lookup) (name : String) (content : Bytes) : Part :=
  ⟨name, content, MediaType.ofName types name⟩

@[simp] theorem ofName_name (types : MediaType.Lookup) (name : String) (content : Bytes) :
    (ofName types name content).name = name := rfl

@[simp] theorem ofName_content (types : MediaType.Lookup) (name : String) (content : Bytes) :
    (ofName types name content).content = content := rfl

/-- A part of some content, named by the base name of a path, or by the whole path if it has no
base name. Bytes of the name that are no text show as U+FFFD. -/
def ofPath (types : MediaType.Lookup) (path content : Bytes) : Part :=
  ofName types (Utf8.decodeLossy ((Path.baseName? path).getD path)) content

def sampleText : Bytes :=
  Utf8.encode "Hello from multipart test server!\n"

def samplePattern : Bytes :=
  Utf8.encode "0123456789ABCDEF"

def sampleRepeats : Nat := 65536

/-- A short text and a mebibyte of binary content, enough for a reader to see many pieces. -/
def samples (types : MediaType.Lookup) : List Part :=
  [ofPath types (Utf8.encode "sample.txt") sampleText,
    ofPath types (Utf8.encode "sample.bin") (List.replicate sampleRepeats samplePattern).flatten]

end Part

end WireBench
