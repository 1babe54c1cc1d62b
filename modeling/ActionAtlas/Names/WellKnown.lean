import ActionAtlas.Text.Cut

/-!
Types of the framework and its base library, which no source file declares.
-/

namespace ActionAtlas.Names

inductive WellKnownKind where
  | «class»
  | interface
deriving DecidableEq, Repr

structure WellKnownNamespace where
  name : String
  classes : List String
  interfaces : List String

def wellKnownNamespaces : List WellKnownNamespace :=
  [{ name := "System"
     classes :=
      ["Boolean", "Byte", "SByte", "Char", "Decimal", "Double", "Single", "Int16", "UInt16",
       "Int32", "UInt32", "Int64", "UInt64", "IntPtr", "UIntPtr", "Object", "String", "Guid",
       "DateTime", "DateTimeOffset", "DateOnly", "TimeOnly", "TimeSpan", "Uri", "Nullable",
       "Attribute", "Exception", "Version", "Tuple", "ValueTuple", "Lazy", "Func", "Action"]
     interfaces := ["IDisposable", "IAsyncDisposable", "IComparable", "IEquatable"] },
   { name := "System.Collections.Generic"
     classes :=
      ["List", "Dictionary", "HashSet", "SortedDictionary", "SortedList", "SortedSet",
       "LinkedList", "Queue", "Stack", "KeyValuePair"]
     interfaces :=
      ["IEnumerable", "ICollection", "IList", "IDictionary", "ISet", "IReadOnlyCollection",
       "IReadOnlyList", "IReadOnlyDictionary", "IReadOnlySet", "IAsyncEnumerable"] },
   { name := "System.Threading", classes := ["CancellationToken"], interfaces := [] },
   { name := "System.Threading.Tasks", classes := ["Task", "ValueTask"], interfaces := [] },
   { name := "Microsoft.AspNetCore.Mvc"
     classes :=
      ["Controller", "ControllerBase", "AreaAttribute", "NonActionAttribute",
       "NonControllerAttribute", "ActionNameAttribute", "RouteAttribute", "HttpGetAttribute",
       "HttpPostAttribute", "HttpPutAttribute", "HttpDeleteAttribute", "HttpPatchAttribute",
       "FromQueryAttribute", "FromRouteAttribute", "FromBodyAttribute", "FromFormAttribute",
       "FromServicesAttribute", "FromHeaderAttribute", "ApiControllerAttribute", "ActionResult",
       "ViewResult", "JsonResult", "ContentResult", "RedirectResult"]
     interfaces := ["IActionResult", "IUrlHelper"] },
   { name := "Microsoft.AspNetCore.Mvc.Filters"
     classes := []
     interfaces :=
      ["IActionFilter", "IAsyncActionFilter", "IResultFilter", "IAsyncResultFilter",
       "IExceptionFilter", "IAsyncExceptionFilter", "IAuthorizationFilter"] },
   { name := "Microsoft.AspNetCore.Http"
     classes := ["HttpContext", "HttpRequest", "HttpResponse"]
     interfaces := ["IFormFile", "IFormFileCollection", "IFormCollection", "IResult"] }]

def wellKnownKind? (fullName : String) : Option WellKnownKind :=
  (Text.cutLast? '.' fullName.toList).bind fun (outer, short) =>
    let outer := String.ofList outer
    let short := String.ofList short
    (wellKnownNamespaces.find? fun candidate => candidate.name == outer).bind fun found =>
      if found.classes.contains short then some .class
      else if found.interfaces.contains short then some .interface
      else none

def isWellKnown (fullName : String) : Bool :=
  (wellKnownKind? fullName).isSome

end ActionAtlas.Names
