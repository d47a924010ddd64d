import ApiPages.ClassIndex.Basic

/-! # Built-in classes

The classes and interfaces that come with the language.  They have no source and no documented
methods; the index knows them in order to recognise them as types. -/

namespace ApiPages

namespace ClassIndex

/-- The names of the built-in classes, and whether they are interfaces. -/
def builtins : List (String × Bool) :=
  [("ArrayAccess", true), ("ArrayIterator", false), ("ArrayObject", false), ("BackedEnum", true),
    ("Closure", false), ("Countable", true), ("DateInterval", false), ("DatePeriod", false),
    ("DateTime", false), ("DateTimeImmutable", false), ("DateTimeInterface", true),
    ("DateTimeZone", false), ("DirectoryIterator", false), ("DOMDocument", false),
    ("DOMElement", false), ("DomainException", false), ("Error", false), ("ErrorException", false),
    ("Exception", false), ("FilesystemIterator", false), ("Generator", false),
    ("InvalidArgumentException", false), ("Iterator", true), ("IteratorAggregate", true),
    ("JsonSerializable", true), ("LogicException", false), ("OutOfBoundsException", false),
    ("PDO", false), ("PDOStatement", false), ("RecursiveDirectoryIterator", false),
    ("RecursiveIteratorIterator", false), ("ReflectionClass", false), ("ReflectionMethod", false),
    ("Reflector", true), ("RuntimeException", false), ("SimpleXMLElement", false),
    ("SplFileInfo", false), ("SplFileObject", false), ("SplObjectStorage", false),
    ("SplStack", false), ("Stringable", true), ("Throwable", true), ("Traversable", true),
    ("TypeError", false), ("UnexpectedValueException", false), ("UnitEnum", true),
    ("ValueError", false), ("stdClass", false)]

/-- The declarations of the built-in classes. -/
def builtinClasses : List ClassDecl :=
  builtins.map fun (name, isInterface) =>
    { name := name.toList, isInterface := isInterface, isBuiltin := true }

/-- The index of the built-in classes. -/
def withBuiltins : ClassIndex :=
  empty.insertAll builtinClasses

end ClassIndex

end ApiPages
