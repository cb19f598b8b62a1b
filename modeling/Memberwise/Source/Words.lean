/-!
# Words of the language

Words that mean something in the language itself, so that a program gives them to nothing else or,
where it does, hides what they meant.
-/

namespace Memberwise.Source

/-- Words that are reserved in code. `await` is not: it is reserved behind a dot alone. -/
def reservedWords : List String :=
  ["as", "async", "break", "const", "continue", "crate", "dyn", "else", "enum", "extern",
    "false", "fn", "for", "if", "impl", "in", "let", "loop", "match", "mod", "move", "mut", "pub",
    "ref", "return", "self", "static", "struct", "super", "trait", "true", "type", "unsafe", "use",
    "where", "while", "yield"]

/-- Names of types that every program has. -/
def primitiveTypes : List String :=
  ["u8", "i8", "u16", "i16", "u32", "i32", "u64", "i64", "u128", "i128", "isize", "usize", "f32",
    "f64", "bool", "str", "char"]

end Memberwise.Source
