import ActionAtlas.Graph.Declaration

/-!
The names that graph documents use for the kinds of types and methods and for accessibility.
-/

namespace ActionAtlas

namespace TypeKind

def all : List TypeKind := [.class, .struct, .interface, .record, .enum]

def term : TypeKind → String
  | .class => "class"
  | .struct => "struct"
  | .interface => "interface"
  | .record => "record"
  | .enum => "enum"

end TypeKind

namespace Accessibility

def all : List Accessibility :=
  [.public, .internal, .protected, .protectedInternal, .privateProtected, .private]

def term : Accessibility → String
  | .public => "public"
  | .internal => "internal"
  | .protected => "protected"
  | .protectedInternal => "protected_internal"
  | .privateProtected => "private_protected"
  | .private => "private"

end Accessibility

namespace MethodKind

def all : List MethodKind :=
  [.ordinary, .constructor, .staticConstructor, .destructor, .propertyAccessor, .eventAccessor,
   .operator, .conversion]

def term : MethodKind → String
  | .ordinary => "ordinary"
  | .constructor => "constructor"
  | .staticConstructor => "static_constructor"
  | .destructor => "destructor"
  | .propertyAccessor => "property_accessor"
  | .eventAccessor => "event_accessor"
  | .operator => "operator"
  | .conversion => "conversion"

end MethodKind

end ActionAtlas
