/-! # Status codes (`include/error.h`) -/

namespace BootLoader

inductive BlStatus where
  | success
  | failure
  -- General errors.
  | unsupported | invalidParameters | insufficientResources
  -- Heap related error codes.
  | memoryAllocationFailed
  -- Loading modules.
  | invalidModuleList | invalidModule | moduleAlreadyLoaded | invalidElf | invalidModuleSize
  | unknownSymbol
  -- File system errors.
  | invalidFileName | invalidFileType | pathConstructionFailed | invalidFileSystem | fileNotFound
  | fileSystemError
  -- Various disk errors.
  | diskOperationTimeout | diskControllerInternalError | unproperDisk | unbootableDisk
  | inactivePartitions | uninitializedDisk | unproperClusterSize | unproperDiskData
  -- USB errors.
  | usbInvalidDevice | usbInvalidHostController | usbInternalError | usbActionNotFinished
  | usbShouldCheckStatus | usbCrcError | usbBitstuffError | usbTimeoutError | usbNakReceived
  | usbBabbleDetected | usbDataBufferError | usbStalled
  -- Graphics errors.
  | graphicsNoProtocols | graphicsProtocolUnsupported
  -- Iterator errors.
  | iteratorEnd
  deriving DecidableEq, Repr

end BootLoader
