import XrtClient.Basic
import XrtClient.Release
import XrtClient.Transfer
import XrtClient.Chained
import XrtClient.ChainedModes
import XrtClient.Execute
import XrtClient.Compile
import XrtClient.CompileRequests
import XrtClient.Topology
import XrtClient.Mesh
import XrtClient.Convert
import XrtClient.Layout
import XrtClient.ReadBack
import XrtClient.Allocator
import XrtClient.Copy
import XrtClient.Strides
import XrtClient.TensorData
import XrtClient.Config
