/-!
The hash that property names are looked up by.
-/

namespace TreeQuery

/-- FNV-1a with 64 bits over the bytes of a text. -/
def hashName (text : String) : UInt64 :=
  text.toUTF8.data.foldl (fun hash byte => (hash ^^^ byte.toUInt64) * 0x100000001b3) 0xcbf29ce484222325

end TreeQuery
