import AssetIntegrity.Text.Integer
/-!
# Class names — the engine's name for a class id

A class id is looked up by the integer that it denotes, so leading zeros and a plus sign do not matter.  Only ASCII
digits denote an integer, and only one that a word holds is looked up; an id in other digits has no name.
-/
namespace AssetIntegrity

def classNames : List (Int × String) :=
  [(1, "GameObject"), (4, "Transform"), (20, "Camera"), (21, "Material"), (23, "MeshRenderer"),
   (29, "OcclusionCullingSettings"), (33, "MeshFilter"), (54, "Rigidbody"), (64, "MeshCollider"),
   (65, "BoxCollider"), (81, "AudioListener"), (82, "AudioSource"), (95, "Animator"), (104, "RenderSettings"),
   (108, "Light"), (114, "MonoBehaviour"), (135, "SphereCollider"), (136, "CapsuleCollider"),
   (157, "LightmapSettings"), (196, "NavMeshSettings"), (212, "SpriteRenderer"), (222, "CanvasRenderer"),
   (223, "Canvas"), (224, "RectTransform"), (1001, "PrefabInstance"), (1660057539, "SceneRoots")]

def className? (classId : String) : Option String :=
  (Text.word? classId.toList).bind fun n => List.lookup n.toInt classNames

end AssetIntegrity
