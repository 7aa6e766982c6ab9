import FpgaCard.FileTree
import FpgaCard.Passthrough.Host

/-!
# The tree of the devices

The files through which a simulated host shows its devices: a directory for each PCI function, with
identifier files and links in it, and other files with the directories that they need.
-/

namespace FpgaCard.Simulation

open Passthrough Text

def functionItems (f : PciFunction) : List (String × Item) :=
  [("driver", f.driver.map .link), ("iommu_group", f.iommuGroup.map .link),
    ("vendor", f.vendor.map .file), ("device", f.device.map .file),
    ("subsystem_vendor", f.subVendor.map .file), ("subsystem_device", f.subDevice.map .file)
  ].filterMap fun (name, item) => item.map (name, ·)

def withFunction (t : FileTree) (f : PciFunction) : FileTree :=
  let way := Path.steps (devicePath f.address)
  if f.isFile then t.withItem way (.file [])
  else
    (functionItems f).foldl (fun t (name, item) => t.withItem (way ++ [name]) item)
      (t.withDirectories way)

def withFile (t : FileTree) (path : String) (content : List UInt8) : FileTree :=
  t.withItem (Path.steps path) (.file content)

/-- The tree of a host with these functions, or without a directory of devices, and with these other
files. -/
def deviceTree (functions : Option (List PciFunction)) (files : List (String × List UInt8)) :
    FileTree :=
  let bare := ({} : FileTree).withDirectories (Path.steps devicesPath).dropLast
  let devices := match functions with
    | some functions => functions.foldl withFunction (bare.withDirectories (Path.steps devicesPath))
    | none => bare
  files.foldl (fun t (path, content) => withFile t path content) devices

end FpgaCard.Simulation
