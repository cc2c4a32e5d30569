import Shading.Dialect.Spelling

/-!
# The built-in dialects

HLSL is the dialect in which every intrinsic has a spelling of its own. GLSL lacks two of them,
`Saturate` and `Mul`, which take more than one call there.
-/

namespace Shading

/-- The classes whose static methods are scalar mathematics. -/
def mathClasses : List String :=
  ["System.Math", "System.MathF"]

/-- The scope of the vector and matrix types. -/
def numericsScope : String :=
  "System.Numerics"

/-- The vector types, whose static methods are geometric. -/
def vectorClasses : List String :=
  ["System.Numerics.Vector2", "System.Numerics.Vector3", "System.Numerics.Vector4"]

/-- The class of the intrinsics that only shaders have. -/
def intrinsicsClass : String :=
  "ShaderGen.ShaderBuiltins"

/-- What a built-in dialect calls things, each under one spelling. -/
structure Vocabulary where
  scalars : TypeTable
  aggregates : TypeTable
  math : Table String String
  geometry : Table String String
  intrinsics : Table String String

namespace Vocabulary

/-- The types of the vocabulary under all spellings. -/
def types (v : Vocabulary) : TypeTable :=
  typeTable v.scalars v.aggregates numericsScope

/-- The methods of the vocabulary in all the classes that have them. -/
def methods (v : Vocabulary) : MethodTable :=
  ((methodTable mathClasses v.math).merge (methodTable vectorClasses v.geometry)).merge
    (methodTable [intrinsicsClass] v.intrinsics)

end Vocabulary

namespace Dialect

/-- The words of HLSL. -/
def hlslVocabulary : Vocabulary where
  scalars := .ofList [("float", "float"), ("double", "double"), ("int", "int"), ("uint", "uint"),
    ("bool", "bool"), ("void", "void")]
  aggregates := .ofList [("Vector2", "float2"), ("Vector3", "float3"), ("Vector4", "float4"),
    ("Matrix4x4", "float4x4")]
  math := .ofList [("Abs", "abs"), ("Acos", "acos"), ("Asin", "asin"), ("Atan", "atan"),
    ("Atan2", "atan2"), ("Ceiling", "ceil"), ("Clamp", "clamp"), ("Cos", "cos"), ("Exp", "exp"),
    ("Floor", "floor"), ("Log", "log"), ("Max", "max"), ("Min", "min"), ("Pow", "pow"),
    ("Sin", "sin"), ("Sqrt", "sqrt"), ("Tan", "tan")]
  geometry := .ofList [("Abs", "abs"), ("Clamp", "clamp"), ("Cross", "cross"),
    ("Distance", "distance"), ("Dot", "dot"), ("Lerp", "lerp"), ("Max", "max"), ("Min", "min"),
    ("Normalize", "normalize"), ("Reflect", "reflect"), ("SquareRoot", "sqrt")]
  intrinsics := .ofList [("Saturate", "saturate"), ("Mul", "mul"), ("Frac", "frac"),
    ("Step", "step"), ("SmoothStep", "smoothstep")]

/-- The words of GLSL. Its arc tangent has an overload of two arguments. -/
def glslVocabulary : Vocabulary where
  scalars := .ofList [("float", "float"), ("double", "double"), ("int", "int"), ("uint", "uint"),
    ("bool", "bool"), ("void", "void")]
  aggregates := .ofList [("Vector2", "vec2"), ("Vector3", "vec3"), ("Vector4", "vec4"),
    ("Matrix4x4", "mat4")]
  math := .ofList [("Abs", "abs"), ("Acos", "acos"), ("Asin", "asin"), ("Atan", "atan"),
    ("Atan2", "atan"), ("Ceiling", "ceil"), ("Clamp", "clamp"), ("Cos", "cos"), ("Exp", "exp"),
    ("Floor", "floor"), ("Log", "log"), ("Max", "max"), ("Min", "min"), ("Pow", "pow"),
    ("Sin", "sin"), ("Sqrt", "sqrt"), ("Tan", "tan")]
  geometry := .ofList [("Abs", "abs"), ("Clamp", "clamp"), ("Cross", "cross"),
    ("Distance", "distance"), ("Dot", "dot"), ("Lerp", "mix"), ("Max", "max"), ("Min", "min"),
    ("Normalize", "normalize"), ("Reflect", "reflect"), ("SquareRoot", "sqrt")]
  intrinsics := .ofList [("Frac", "fract"), ("Step", "step"), ("SmoothStep", "smoothstep")]

/-- The dialect HLSL. -/
def hlsl : Dialect :=
  ⟨"HLSL", hlslVocabulary.types, hlslVocabulary.methods⟩

/-- The dialect GLSL. -/
def glsl : Dialect :=
  ⟨"GLSL", glslVocabulary.types, glslVocabulary.methods⟩

end Dialect

end Shading
